import Mathlib.Data.List.DropRight
import SqlFilter.Path

set_option relaxedAutoImplicit false
set_option autoImplicit false

/-!
# Expanded paths

What a user writes for a path is expanded once, and may be expanded again wherever the result is
handed on. That does no harm: an expanded path is absolute and has no blanks around it, and such a
path stands for itself.

## Design

Blanks inside a path count, also behind a tilde and its slash, and so does a blank at the end of a
directory: it would be trimmed by the next expansion. So the paths that stand for themselves are the
absolute ones without a blank at their end, and directories have to be such paths.

## Main definitions

* `Text.IsTrimmed` — texts without blanks at their two ends.
* `Path.IsSettled` — absolute paths without a blank at their end.

## Main results

* `Text.trimChars_eq_self_iff`, `Text.trimChars_append_append` — what is trimmed, and what does not
  count.
* `Directories.expand_of_isAbsolute`, `Directories.isSettled_expand` — what absolute paths and all
  others are expanded to.
* `Directories.expand_projects` — expansion is a projection onto the settled paths.
-/

namespace SqlFilter

/-! ## Trimmed texts -/

namespace Text

/-- A text has no blank at its two ends. -/
def IsTrimmed (cs : List Char) : Prop :=
  (∀ c ∈ cs.head?, isBlank c = false) ∧ ∀ c ∈ cs.getLast?, isBlank c = false

/-- Dropping blanks leaves no blank in front. -/
private theorem isBlank_of_mem_head? {cs : List Char} {c : Char}
    (h : c ∈ (cs.dropWhile isBlank).head?) : isBlank c = false := by
  have hhead := List.head?_dropWhile_not isBlank cs
  rw [Option.mem_def.mp h] at hhead
  exact hhead

/-- Trimming leaves no blank at either end. -/
theorem isTrimmed_trimChars (cs : List Char) : IsTrimmed (trimChars cs) := by
  constructor
  · intro c hc
    -- what is left is a prefix of what dropping the blanks in front has left
    obtain ⟨dropped, h⟩ : trimChars cs <+: cs.dropWhile isBlank := List.rdropWhile_prefix isBlank _
    refine @isBlank_of_mem_head? cs c ?_
    rw [← h, List.head?_append, Option.mem_def.mp hc]
    rfl
  · intro c hc
    rw [trimChars, List.getLast?_reverse] at hc
    exact isBlank_of_mem_head? hc

/-- **Trimming changes nothing** exactly if there is no blank at either end. -/
theorem trimChars_eq_self_iff {cs : List Char} : trimChars cs = cs ↔ IsTrimmed cs := by
  constructor
  · intro h
    exact h ▸ isTrimmed_trimChars cs
  · rintro ⟨hhead, hlast⟩
    have hfront : cs.dropWhile isBlank = cs := by
      cases cs with
      | nil => rfl
      | cons c cs => exact List.dropWhile_cons_of_neg (by simp [hhead c rfl])
    have hback : cs.reverse.dropWhile isBlank = cs.reverse := by
      rw [← List.head?_reverse] at hlast
      cases hcs : cs.reverse with
      | nil => rfl
      | cons c rest => exact List.dropWhile_cons_of_neg (by simp [hlast c (by rw [hcs]; rfl)])
    rw [trimChars, hfront, hback, List.reverse_reverse]

/-- **Blanks around a text do not count.** -/
theorem trimChars_append_append {before after : List Char} (hbefore : ∀ c ∈ before, isBlank c = true)
    (hafter : ∀ c ∈ after, isBlank c = true) (cs : List Char) :
    trimChars (before ++ cs ++ after) = trimChars cs := by
  have hback (front : List Char) :
      (front ++ after).reverse.dropWhile isBlank = front.reverse.dropWhile isBlank := by
    rw [List.reverse_append]
    exact List.dropWhile_append_of_pos fun c hc => hafter c (List.mem_reverse.mp hc)
  rw [trimChars, trimChars, List.append_assoc, List.dropWhile_append_of_pos hbefore,
    List.dropWhile_append]
  split
  · rename_i hempty
    rw [List.dropWhile_eq_nil_iff.mpr hafter, List.isEmpty_iff.mp hempty]
  · rw [hback]

/-- The characters of a trimmed text are those that trimming leaves. -/
theorem toList_trim (s : String) : (trim s).toList = trimChars s.toList := String.toList_ofList

/-- **Trimming changes nothing** at a text without blanks at its ends. -/
theorem trim_of_isTrimmed {s : String} (h : IsTrimmed s.toList) : trim s = s := by
  rw [trim, trimChars_eq_self_iff.mpr h, String.ofList_toList]

/-- **Blanks around a text do not count.** -/
theorem trim_append_append {before after : String} (hbefore : ∀ c ∈ before.toList, isBlank c = true)
    (hafter : ∀ c ∈ after.toList, isBlank c = true) (s : String) :
    trim (before ++ s ++ after) = trim s := by
  rw [trim, trim, String.toList_append, String.toList_append, trimChars_append_append hbefore hafter]

end Text

/-! ## Settled paths -/

namespace Path

/-- A text does not end with a blank. -/
def EndsPlainly (path : String) : Prop := ∀ c ∈ path.toList.getLast?, Text.isBlank c = false

instance (path : String) : Decidable (EndsPlainly path) :=
  decidable_of_iff ((path.toList.getLast?.all fun c => !Text.isBlank c) = true) (by
    cases h : path.toList.getLast? <;> simp [EndsPlainly, h])

/-- An absolute path that does not end with a blank. -/
structure IsSettled (path : String) : Prop where
  isAbsolute : isAbsolute path = true
  endsPlainly : EndsPlainly path

instance (path : String) : Decidable (IsSettled path) :=
  decidable_of_iff (isAbsolute path = true ∧ EndsPlainly path)
    ⟨fun h => ⟨h.1, h.2⟩, fun h => ⟨h.isAbsolute, h.endsPlainly⟩⟩

/-- An absolute path starts with a slash. -/
theorem isAbsolute_iff {path : String} :
    Path.isAbsolute path = true ↔ ∃ rest, path.toList = '/' :: rest := by
  simp [Path.isAbsolute, List.head?_eq_some_iff]

/-- A settled path has no blanks around it. -/
theorem IsSettled.isTrimmed {path : String} (h : IsSettled path) : Text.IsTrimmed path.toList := by
  obtain ⟨rest, hrest⟩ := isAbsolute_iff.mp h.isAbsolute
  refine ⟨fun c hc => ?_, h.endsPlainly⟩
  rw [hrest] at hc
  obtain rfl : '/' = c := by simpa using hc
  decide

/-- Two texts in a row end plainly if the second one does and, where that is empty, the first one
does. -/
theorem EndsPlainly.append {a b : String} (ha : EndsPlainly a) (hb : EndsPlainly b) :
    EndsPlainly (a ++ b) := by
  intro c hc
  rw [String.toList_append, List.getLast?_append] at hc
  cases hlast : b.toList.getLast? with
  | none =>
    rw [hlast] at hc
    exact ha c hc
  | some d =>
    rw [hlast] at hc
    exact hb c (hlast.trans hc)

/-- What starts with an absolute path is absolute. -/
theorem isAbsolute_append {a : String} (ha : Path.isAbsolute a = true) (b : String) :
    Path.isAbsolute (a ++ b) = true := by
  obtain ⟨rest, hrest⟩ := isAbsolute_iff.mp ha
  rw [isAbsolute_iff, String.toList_append, hrest]
  exact ⟨rest ++ b.toList, rfl⟩

/-- **A path as seen from a settled base** is settled, if it does not end with a blank. -/
theorem isSettled_join {base path : String} (hbase : IsSettled base) (hpath : EndsPlainly path) :
    IsSettled (join base path) := by
  have hslash : EndsPlainly "/" := by decide
  unfold join
  split
  · rename_i habsolute
    exact ⟨habsolute, hpath⟩
  · split
    · exact ⟨isAbsolute_append hbase.isAbsolute path, hbase.endsPlainly.append hpath⟩
    · exact ⟨isAbsolute_append (isAbsolute_append hbase.isAbsolute "/") path,
        (hbase.endsPlainly.append hslash).append hpath⟩

/-- An absolute path is seen in the same way from everywhere. -/
theorem join_of_isAbsolute {path : String} (h : Path.isAbsolute path = true) (base : String) :
    join base path = path := if_pos h

end Path

/-! ## Expansion -/

namespace Directories

open SqlFilter.Path

variable (d : Directories)

/-- An absolute path has no tilde to replace. -/
theorem replaceTilde_of_isAbsolute {path : String} (h : isAbsolute path = true) :
    d.replaceTilde path = path := by
  obtain ⟨rest, hrest⟩ := isAbsolute_iff.mp h
  unfold replaceTilde
  rw [hrest]
  split
  · rename_i heq
    simp at heq
  · rename_i heq
    simp at heq
  · rfl

/-- Replacing a tilde leaves no blank at the end, if there is none at the end of the path and of the
home directory. -/
theorem endsPlainly_replaceTilde (hhome : ∀ home ∈ d.home, IsSettled home) {path : String}
    (hpath : EndsPlainly path) : EndsPlainly (d.replaceTilde path) := by
  unfold replaceTilde
  split
  · rename_i home hsome htilde
    exact (hhome home hsome).endsPlainly
  · rename_i home rest hsome htilde
    refine (isSettled_join (hhome home hsome) fun c hc => hpath c ?_).endsPlainly
    -- what stands behind the tilde and the slash ends where the path ends
    rw [String.toList_ofList] at hc
    obtain ⟨init, hinit⟩ := List.getLast?_eq_some_iff.mp hc
    exact List.getLast?_eq_some_iff.mpr ⟨'~' :: '/' :: init, by rw [htilde, hinit]; rfl⟩
  · exact hpath

/-- **An absolute path** is only trimmed. -/
theorem expand_of_isAbsolute {path : String} (h : isAbsolute (Text.trim path) = true) :
    d.expand path = Text.trim path := by
  obtain ⟨rest, hrest⟩ := isAbsolute_iff.mp h
  have hne : ¬ (Text.trim path).isEmpty = true := by
    rw [String.isEmpty_iff, ← String.toList_eq_nil_iff, hrest]
    exact List.cons_ne_nil _ _
  rw [expand, if_neg hne, d.replaceTilde_of_isAbsolute h, join_of_isAbsolute h]

/-- **A settled path** stands for itself. -/
theorem expand_of_isSettled {path : String} (h : IsSettled path) : d.expand path = path := by
  have htrim := Text.trim_of_isTrimmed h.isTrimmed
  rw [d.expand_of_isAbsolute (htrim.symm ▸ h.isAbsolute), htrim]

variable {d} (hhome : ∀ home ∈ d.home, IsSettled home) (hcurrent : IsSettled d.current)

include hhome hcurrent in
/-- **Every path is expanded to a settled one**, if the directories are settled. -/
theorem isSettled_expand (path : String) : IsSettled (d.expand path) := by
  unfold expand
  split
  · exact hcurrent
  · have htrim : EndsPlainly (Text.trim path) := by
      rw [EndsPlainly, Text.toList_trim]
      exact (Text.isTrimmed_trimChars path.toList).2
    exact isSettled_join hcurrent (d.endsPlainly_replaceTilde hhome htrim)

include hhome hcurrent in
/-- **Expansion is a projection onto the settled paths**, if the directories are settled:

* every path is expanded to an absolute one, and that one to itself,
* blanks around a path do not count,
* a path that is absolute once it is trimmed is only trimmed,
* the results are exactly the settled paths.

**Proof sketch.** The last character of a result is that of the trimmed path, that of a directory, or
the slash between them. So a result is settled, and trimming, the tilde and the current directory
leave a settled path alone. -/
theorem expand_projects :
    (∀ path, isAbsolute (d.expand path) = true ∧ d.expand (d.expand path) = d.expand path) ∧
      (∀ path before after : String, (∀ c ∈ before.toList, Text.isBlank c = true) →
        (∀ c ∈ after.toList, Text.isBlank c = true) →
          d.expand (before ++ path ++ after) = d.expand path) ∧
      (∀ path, isAbsolute (Text.trim path) = true → d.expand path = Text.trim path) ∧
      ∀ path, (∃ written, d.expand written = path) ↔ IsSettled path := by
  refine ⟨fun path => ?_, fun path before after hbefore hafter => ?_,
    fun path h => d.expand_of_isAbsolute h, fun path => ?_⟩
  · have hsettled := isSettled_expand hhome hcurrent path
    exact ⟨hsettled.isAbsolute, d.expand_of_isSettled hsettled⟩
  · rw [expand, expand, Text.trim_append_append hbefore hafter]
  · constructor
    · rintro ⟨written, rfl⟩
      exact isSettled_expand hhome hcurrent written
    · intro h
      exact ⟨path, d.expand_of_isSettled h⟩

/-- Directories of which one is the root, and a path with blanks around it, inside it and behind its
tilde. -/
theorem expand_projects_blankInside :
    let d : Directories := ⟨some "/home/a b", "/"⟩
    (∀ home ∈ d.home, IsSettled home) ∧ IsSettled d.current ∧
      d.expand "\u3000~/ x y\t" = "/home/a b/ x y" ∧
      d.expand (d.expand "\u3000~/ x y\t") = d.expand "\u3000~/ x y\t" ∧
      d.expand "\u3000~/ x y\t" = d.expand "~/ x y" ∧ d.expand "~//x\n" = "/x" ∧
      d.expand " /x " = Text.trim " /x " := by
  intro d
  have hhome : ∀ home ∈ d.home, IsSettled home := by
    intro home h
    obtain rfl : "/home/a b" = home := Option.some_inj.mp h
    decide
  have hcurrent : IsSettled d.current := by decide
  obtain ⟨hresult, hblank, habsolute, -⟩ := expand_projects hhome hcurrent
  exact ⟨hhome, hcurrent, by decide +kernel, (hresult _).2,
    hblank "~/ x y" "\u3000" "\t" (List.forall_mem_singleton.mpr (by decide))
      (List.forall_mem_singleton.mpr (by decide)), by decide +kernel, habsolute _ (by decide)⟩

end Directories

end SqlFilter
