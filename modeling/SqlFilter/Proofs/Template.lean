import Mathlib.Data.List.Chain
import SqlFilter.Proofs.Parameters
import SqlFilter.Proofs.Words

set_option relaxedAutoImplicit false
set_option autoImplicit false

/-!
# Templates

The text of a condition consists of segments: columns, placeholders, and fixed texts of a few kinds.
The list of its segments is its template. A template knows fields and names of parameters, but
neither the naming of columns nor any value, and the text is its segments one after the other.

## Design

A delimiter stands between any two neighbouring segments, at the end of the left one or at the start
of the right one. That is the invariant `Separated`; with it whatever is defined word by word (the
expansion of placeholders, the lexemes of a condition) can be read off segment by segment.

## Main definitions

* `Segment`, `Template` — the parts of a text, and texts as lists of them.
* `Template.written`, `Template.chars` — the text of a template.
* `Separated`, `Closed` — delimiters between neighbouring segments, and also after the last one.

## Main results

* `Separated.seam` — texts meet at a seam after every segment of a separated template.
* `Separated.map_written` — what goes through seams is read off segment by segment.
-/

namespace SqlFilter

/-! ## Segments -/

/-- A part of the text of a condition. -/
inductive Segment where
  | opening
  | closing
  | link (c : Conjunction)
  | not
  | column (field : String)
  | operator (o : Operator)
  | null (expected : Bool)
  | placeholder (name : String)

/-- A text as the list of its segments. -/
abbrev Template : Type := List Segment

namespace Segment

/-- The text of a segment, with placeholders written in some way. -/
def written (naming : Naming) (write : String → String) : Segment → String
  | .opening => "("
  | .closing => ")"
  | .link c => c.separator
  | .not => "NOT "
  | .column field => naming.column field
  | .operator o => " " ++ o.token ++ " "
  | .null true => " IS NULL"
  | .null false => " IS NOT NULL"
  | .placeholder name => write name

/-- The text of a segment starts with a delimiter. -/
def startsApart : Segment → Bool
  | .opening | .closing | .link _ | .operator _ | .null _ => true
  | .not | .column _ | .placeholder _ => false

/-- The text of a segment ends with a delimiter. -/
def endsApart : Segment → Bool
  | .opening | .closing | .link _ | .not | .operator _ => true
  | .column _ | .null _ | .placeholder _ => false

/-- The field whose column a segment is. -/
def field? : Segment → Option String
  | .column field => some field
  | _ => none

/-- The parameter whose placeholder a segment is. -/
def parameter? : Segment → Option String
  | .placeholder name => some name
  | _ => none

variable (naming : Naming) (write : String → String)

/-- Segments that start with a delimiter do so however placeholders are written. -/
theorem exists_start {s : Segment} (h : s.startsApart = true) :
    ∃ d rest, isDelimiter d = true ∧ (s.written naming write).toList = d :: rest := by
  cases s with
  | opening => exact ⟨'(', [], by decide, by simp [written]⟩
  | closing => exact ⟨')', [], by decide, by simp [written]⟩
  | link c =>
    exact ⟨' ', (c.keyword ++ " ").toList, by decide, by simp [written, Conjunction.separator]⟩
  | operator o => exact ⟨' ', (o.token ++ " ").toList, by decide, by simp [written]⟩
  | null expected =>
    cases expected with
    | false => exact ⟨' ', "IS NOT NULL".toList, by decide, by simp [written]⟩
    | true => exact ⟨' ', "IS NULL".toList, by decide, by simp [written]⟩
  | not | column | placeholder => simp [startsApart] at h

/-- Segments that end with a delimiter do so however placeholders are written. -/
theorem exists_end {s : Segment} (h : s.endsApart = true) :
    ∃ d init, isDelimiter d = true ∧ (s.written naming write).toList = init ++ [d] := by
  cases s with
  | opening => exact ⟨'(', [], by decide, by simp [written]⟩
  | closing => exact ⟨')', [], by decide, by simp [written]⟩
  | link c =>
    exact ⟨' ', (" " ++ c.keyword).toList, by decide, by simp [written, Conjunction.separator]⟩
  | not => exact ⟨' ', "NOT".toList, by decide, by simp [written]⟩
  | operator o => exact ⟨' ', (" " ++ o.token).toList, by decide, by simp [written]⟩
  | column | null | placeholder => simp [endsApart] at h

/-- No segment is empty, if no placeholder is written as the empty text. -/
theorem written_ne_nil (hwrite : ∀ name, (write name).toList ≠ []) (s : Segment) :
    (s.written naming write).toList ≠ [] := by
  cases s with
  | placeholder name => exact hwrite name
  | column field => simp [written, Naming.column, Quote.qualified]
  | link c => simp [written, Conjunction.separator]
  | null expected => cases expected <;> simp [written]
  | opening | closing | not | operator => simp [written]

end Segment

namespace Template

/-- The text of a template, with placeholders written in some way. -/
def written (naming : Naming) (write : String → String) (t : Template) : List Char :=
  t.flatMap fun s => (s.written naming write).toList

/-- The text of a template. -/
def chars (naming : Naming) (t : Template) : List Char := t.written naming SqlFilter.placeholder

/-- The fields of the columns of a template. -/
def fields (t : Template) : List String := t.filterMap Segment.field?

/-- The parameters of the placeholders of a template. -/
def parameters (t : Template) : List String := t.filterMap Segment.parameter?

section

variable (naming : Naming) (write : String → String)

@[simp] theorem written_nil : written naming write [] = [] := rfl

@[simp] theorem written_cons (s : Segment) (t : Template) :
    written naming write (s :: t) = (s.written naming write).toList ++ written naming write t := rfl

@[simp] theorem written_append (a b : Template) :
    written naming write (a ++ b) = written naming write a ++ written naming write b :=
  List.flatMap_append

/-- Only the empty template has the empty text, if no placeholder is written as the empty text. -/
theorem written_eq_nil_iff (hwrite : ∀ name, (write name).toList ≠ []) {t : Template} :
    t.written naming write = [] ↔ t = [] := by
  cases t with
  | nil => simp
  | cons s t => simp [Segment.written_ne_nil naming write hwrite s]

/-- Only the empty template has the empty text. -/
theorem chars_eq_nil_iff {t : Template} : t.chars naming = [] ↔ t = [] :=
  written_eq_nil_iff naming _ fun name => by simp [SqlFilter.placeholder]

end

/-- The text of a template depends only on how its own placeholders are written. -/
theorem written_congr {naming : Naming} {write write' : String → String} {t : Template}
    (h : ∀ p ∈ t.parameters, write p = write' p) :
    t.written naming write = t.written naming write' := by
  refine List.flatMap_congr ?_
  intro s hs
  cases s with
  | placeholder name => exact congrArg String.toList (h name (List.mem_filterMap.mpr ⟨_, hs, rfl⟩))
  | null expected => cases expected <;> rfl
  | _ => rfl

/-- Templates with a segment between any two of them. -/
def joined (s : Segment) (ts : List Template) : Template := [s].intercalate ts

@[simp] theorem joined_nil (s : Segment) : joined s [] = [] := rfl

@[simp] theorem joined_singleton (s : Segment) (t : Template) : joined s [t] = t := by
  simp [joined]

@[simp] theorem joined_cons_cons (s : Segment) (t u : Template) (ts : List Template) :
    joined s (t :: u :: ts) = t ++ s :: joined s (u :: ts) := by
  simp [joined, List.intercalate_cons_cons]

/-- The text of joined templates is the joined texts. -/
theorem written_joined (naming : Naming) (write : String → String) (s : Segment)
    (ts : List Template) : (joined s ts).written naming write =
      (s.written naming write).toList.intercalate (ts.map (written naming write)) := by
  induction ts with
  | nil => rfl
  | cons t ts ih =>
    cases ts with
    | nil => simp
    | cons u ts =>
      rw [joined_cons_cons, written_append, written_cons, ih]
      simp [List.intercalate_cons_cons]

end Template

/-! ## Delimiters between segments -/

/-- A delimiter stands where the texts of two segments meet. -/
def Segment.Apart (s t : Segment) : Prop := s.endsApart = true ∨ t.startsApart = true

/-- A delimiter stands between any two neighbouring segments. -/
def Separated (t : Template) : Prop := t.IsChain Segment.Apart

/-- A template that is separated, also from whatever follows it. -/
structure Closed (t : Template) : Prop where
  separated : Separated t
  last : ∀ s ∈ t.getLast?, s.endsApart = true

namespace Separated

variable {a b : Template}

/-- A template follows a closed one. -/
theorem append_of_closed (ha : Closed a) (hb : Separated b) : Separated (a ++ b) :=
  List.isChain_append.mpr ⟨ha.separated, hb, fun s hs _ _ => .inl (ha.last s hs)⟩

/-- A segment that starts with a delimiter follows any template. -/
theorem append_cons {s : Segment} (ha : Separated a) (hs : s.startsApart = true)
    (hb : Separated (s :: b)) : Separated (a ++ s :: b) := by
  refine List.isChain_append.mpr ⟨ha, hb, fun _ _ t ht => .inr ?_⟩
  obtain rfl : s = t := by simpa using ht
  exact hs

/-- Any template follows a segment that ends with a delimiter. -/
theorem cons {s : Segment} (hs : s.endsApart = true) (ha : Separated a) : Separated (s :: a) :=
  append_of_closed (a := [s]) ⟨.singleton _, by simpa using hs⟩ ha

/-- Templates with a link between any two of them are separated if each of them is. -/
theorem joined_link (c : Conjunction) {ts : List Template} (h : ∀ t ∈ ts, Separated t) :
    Separated (Template.joined (.link c) ts) := by
  induction ts with
  | nil => exact List.IsChain.nil
  | cons t ts ih =>
    cases ts with
    | nil => simpa using h t (by simp)
    | cons u ts =>
      rw [Template.joined_cons_cons]
      have hrest := ih fun v hv => h v (List.mem_cons_of_mem _ hv)
      exact (h t (by simp)).append_cons rfl (cons rfl hrest)

variable (naming : Naming) (write : String → String)

/-- In a separated template there is a seam after every segment. -/
theorem seam {s : Segment} {t : Template} (h : Separated (s :: t)) :
    Seam (s.written naming write).toList (t.written naming write) := by
  cases t with
  | nil => exact Seam.last _
  | cons u t =>
    rcases (List.isChain_cons_cons.mp h).1 with hs | hu
    · obtain ⟨d, init, hd, htext⟩ := Segment.exists_end naming write hs
      rw [htext]
      exact Seam.atEnd init _ d hd
    · obtain ⟨d, rest, hd, htext⟩ := Segment.exists_start naming write hu
      rw [Template.written_cons, htext]
      exact Seam.atStart _ _ d hd

end Separated

namespace Closed

variable {a b : Template}

/-- The empty template is closed. -/
theorem nil : Closed [] := ⟨.nil, by simp⟩

/-- Closed templates are closed together. -/
theorem append (ha : Closed a) (hb : Closed b) : Closed (a ++ b) where
  separated := Separated.append_of_closed ha hb.separated
  last := by
    intro s hs
    rw [List.getLast?_append] at hs
    cases hlast : b.getLast? with
    | none => exact ha.last s (by simpa [hlast] using hs)
    | some t => exact hb.last s (by simpa [hlast] using hs)

/-- A closed template stays closed behind a segment that ends with a delimiter. -/
theorem cons {s : Segment} (hs : s.endsApart = true) (ha : Closed a) : Closed (s :: a) :=
  append (a := [s]) ⟨.singleton _, by simpa using hs⟩ ha

/-- A separated template in parentheses is closed. -/
theorem parenthesized (ha : Separated a) : Closed (.opening :: (a ++ [.closing])) where
  separated := Separated.cons rfl (ha.append_cons rfl (.singleton _))
  last := by
    intro s hs
    rw [← List.cons_append, List.getLast?_concat] at hs
    obtain rfl : Segment.closing = s := by simpa using hs
    rfl

end Closed

/-! ## Texts of templates, segment by segment -/

/-- **What goes through seams is read off a separated template segment by segment.** -/
theorem Separated.map_written {M : Type} {join : M → M → M} {unit : M} {f : List Char → M}
    (hnil : f [] = unit) (happend : ∀ {a b}, Seam a b → f (a ++ b) = join (f a) (f b))
    (naming : Naming) (write : String → String) {t : Template} (h : Separated t) :
    f (t.written naming write) =
      t.foldr (fun s => join (f (s.written naming write).toList)) unit := by
  induction t with
  | nil => exact hnil
  | cons s t ih =>
    have htail : Separated t := h.tail
    rw [Template.written_cons, happend (h.seam naming write), ih htail]
    rfl

end SqlFilter
