/-
Cursors in link headers (`connectors/base/http.py`, `parse_link_header_cursor`). The header is cut at every comma, and
the pieces in which `rel="next"` stands letter for letter are read: a comma inside a link cuts the link, and a relation
that is written in another way is not seen.
-/
import Langbridge.Core.Percent
import Langbridge.Connectors.Declarative

namespace Langbridge.Connectors.LinkHeader

open Core Core.Percent List Option

/-! ## Links -/

/-- the value of a parameter: a token, or a quoted text with its escaped characters -/
inductive ParamValue where
  | token (text : List Char)
  | quoted (items : List (Bool × Char))

structure Param where
  before : List Char := []
  after : List Char := []
  name : List Char
  /-- the blanks around the equals sign, and the value -/
  value : Option (List Char × List Char × ParamValue) := none

structure Link where
  before : List Char := []
  after : List Char := []
  url : List Char
  params : List Param := []

def isBlank (c : Char) : Bool := c = ' ' || c = '\t'

/-- the characters of tokens -/
def isTokenChar (c : Char) : Bool := c.isAlphanum || decide (c ∈ "!#$%&'*+-.^_`|~".toList)

/-- the characters of references -/
def isUrlChar (c : Char) : Bool := c.isAlphanum || decide (c ∈ "-._~:/?#[]@!$&'()*+,;=%".toList)

def isToken (text : List Char) : Bool := !text.isEmpty && text.all isTokenChar

/-- visible characters and blanks; quotes and backslashes have to be escaped -/
def isQuotedItem (item : Bool × Char) : Bool :=
  (decide (32 ≤ item.2.toNat) || item.2 = '\t') && item.2.toNat ≠ 127 && (item.1 || (item.2 ≠ '"' && item.2 ≠ '\\'))

namespace ParamValue

def formed : ParamValue → Bool
  | token text => isToken text
  | quoted items => items.all isQuotedItem

/-- the value as it is written -/
def text : ParamValue → List Char
  | token text => text
  | quoted items => '"' :: items.flatMap (fun item => if item.1 then [ '\\', item.2] else [item.2]) ++ [ '"']

/-- the text that is meant -/
def content : ParamValue → List Char
  | token text => text
  | quoted items => items.map Prod.snd

end ParamValue

namespace Param

def formed (p : Param) : Bool :=
  p.before.all isBlank && p.after.all isBlank && isToken p.name &&
    p.value.all fun v => v.1.all isBlank && v.2.1.all isBlank && v.2.2.formed

def text (p : Param) : List Char :=
  p.before ++ ';' :: p.after ++ p.name ++ p.value.elim [] fun v => v.1 ++ '=' :: v.2.1 ++ v.2.2.text

/-- the parameter `rel`, in any letter case -/
def isRel (p : Param) : Bool := p.name.map Char.toLower = "rel".toList

end Param

namespace Link

def formed (l : Link) : Bool :=
  l.before.all isBlank && l.after.all isBlank && l.url.all isUrlChar && l.params.all Param.formed

def text (l : Link) : List Char := l.before ++ '<' :: l.url ++ '>' :: l.params.flatMap Param.text ++ l.after

/-- the relations of a link: the names in its first `rel`, in small letters -/
def relations (l : Link) : List (List Char) :=
  match (l.params.find? Param.isRel).bind Param.value with
  | none => []
  | some (_, _, value) => ((value.content.map Char.toLower).splitOnP isBlank).filter (· ≠ [])

def isNext (l : Link) : Bool := decide ("next".toList ∈ l.relations)

end Link

structure Header where
  links : List Link
  formed : links.all Link.formed = true

namespace Header

def text (h : Header) : List Char := [ ','].intercalate (h.links.map Link.text)

/-- the link to follow -/
def next? (h : Header) : Option Link := h.links.find? Link.isNext

end Header

/-! ## The query of a URL (`urllib.parse`) -/

/-- `urlparse(url).query` -/
def urlQuery (url : List Char) : List Char :=
  (((url.dropWhile fun c => decide (c.toNat ≤ 32)).filter fun c => c ≠ '\t' && c ≠ '\r' && c ≠ '\n').takeWhile
    (· ≠ '#')).dropWhile (· ≠ '?') |>.drop 1

/-- `unquote(text.replace("+", " "))` -/
def unquotePlus (U : Utf8) (text : List Char) : List Char := unquote U (text.map fun c => if c = '+' then ' ' else c)

/-- `parse_qs(query).get(name)`: fields without a value are left out -/
def parseQs (U : Utf8) (query name : List Char) : List (List Char) :=
  (query.splitOn '&').filterMap fun field =>
    match field.dropWhile (· ≠ '=') with
    | '=' :: c :: value =>
      if unquotePlus U (field.takeWhile (· ≠ '=')) = name then some (unquotePlus U (c :: value)) else none
    | _ => none

/-- `parse_qs(urlparse(url).query).get(name)` -/
def queryValues (U : Utf8) (url name : String) : List String :=
  (parseQs U (urlQuery url.toList) name.toList).map String.ofList

/-- Python's texts with another reading of queries -/
@[reducible] def withQueries (P : PyCursors) (values : String → String → List String) : PyCursors :=
  { P with queryValues := values }

/-! ## The URLs that are read -/

/-- the URLs of the pieces between commas in which the relation stands letter for letter -/
def targets (header : List Char) : List String :=
  ((header.splitOn ',').filter fun fragment => decide ("rel=\"next\"".toList <:+: fragment)).filterMap linkTarget

theorem firstM_bind {α β γ : Type} (f : α → Option β) (g : β → Option γ) (l : List α) :
    l.firstM (fun a => (f a).bind g) = (l.filterMap f).findSome? g := by
  induction l with
  | nil => rfl
  | cons a l ih =>
    rw [List.firstM, ih]
    cases hf : f a with
    | none => rw [filterMap_cons_none hf]; rfl
    | some b =>
      rw [filterMap_cons_some hf, findSome?_cons, bind_some]
      cases hg : g b <;> simp

/-- **The cursor** is what the first of these URLs with the parameter gives it. -/
theorem parseLinkHeaderCursor_eq [PyCursors] (header name : String) :
    parseLinkHeaderCursor (some header) name =
      (targets header.toList).findSome? fun url => (PyCursors.queryValues url name).head? :=
  firstM_bind _ _ _

/-- a search that finds in a list what it finds at one place, whatever is searched for -/
theorem forall_findSome?_iff {α β : Type} [DecidableEq α] [Inhabited β] (l : List α) (o : Option α) :
    (∀ f : α → Option β, l.findSome? f = o.bind f) ↔ (∀ a ∈ l, o = some a) ∧ (o.isSome → l ≠ []) := by
  constructor
  · intro h
    refine ⟨fun a ha => ?_, fun hsome hnil => ?_⟩
    · have hf := h fun b => if b = a then some default else none
      have hfound : (l.findSome? fun b => if b = a then some (default : β) else none).isSome = true :=
        findSome?_isSome_iff.2 ⟨a, ha, by rw [if_pos rfl]; rfl⟩
      rw [hf] at hfound
      cases o with
      | none => cases hfound
      | some b =>
        by_contra hne
        have hba : b ≠ a := fun heq => hne (by rw [heq])
        rw [bind_some, if_neg hba] at hfound
        cases hfound
    · have hf := h fun _ => some default
      obtain ⟨b, rfl⟩ := isSome_iff_exists.1 hsome
      rw [hnil] at hf
      cases hf
  · rintro ⟨hall, hsome⟩ f
    cases o with
    | none =>
      cases l with
      | nil => rfl
      | cons a l => cases hall a mem_cons_self
    | some b =>
      obtain ⟨a, l', rfl⟩ := exists_cons_of_ne_nil (hsome rfl)
      obtain rfl := Option.some.inj (hall a mem_cons_self)
      rw [bind_some, findSome?_cons]
      cases hf : f b with
      | some c => rfl
      | none =>
        refine findSome?_eq_none_iff.2 fun a ha => ?_
        rw [← Option.some.inj (hall a (mem_cons_of_mem b ha))]
        exact hf

/-! ## The next link -/

/-- what a header's next link gives a parameter -/
def expected (values : String → String → List String) (h : Header) (name : String) : Option String :=
  h.next?.bind fun l => (values (String.ofList l.url) name).head?

/-- **The next link is read, and no other**: every piece between commas that has `rel="next"` and a text between angle
brackets has the URL of the next link there, and there is such a piece if there is a next link. -/
structure ReadsNext (h : Header) : Prop where
  others : ∀ url ∈ targets h.text, (h.next?.map fun l => String.ofList l.url) = some url
  next : h.next?.isSome = true → targets h.text ≠ []

section Example

open scoped Decimal

def secondPage : List Char := [ '/', 'a', '?', 'p', '=', '2']

/-- `</a?p=2>; rel="prev next"` -/
def prevAndNext : Header :=
  { links := [{ url := secondPage, params := [{ after := [ ' '], name := [ 'r', 'e', 'l'], value := some ([], [],
      .quoted ([ 'p', 'r', 'e', 'v', ' ', 'n', 'e', 'x', 't'].map fun c => (false, c))) }] }]
    formed := by decide +kernel }

end Example

end Langbridge.Connectors.LinkHeader
