import Mathlib.Data.List.TakeWhile
import SqlFilter.Config
import SqlFilter.Proofs.Statements

set_option relaxedAutoImplicit false
set_option autoImplicit false

/-!
# The limits of a page

A negative limit is no limit for a database, so a page must never be asked for with one. The sizes of
pages come from files, and the size that is asked for comes from a client. Here a configuration that was
loaded is shown to be usable, and a usable one keeps every page between one row and its largest size.

## Main definitions

* `Config.IsUsable` — what holds of every configuration in use.

## Main results

* `Config.check_eq_ok_iff`, `Config.isUsable_of_load` — the check, and what is loaded, is usable.
* `Paging.resolveTake_of_pos`, `Paging.resolveTake_of_nonpos`, `Paging.resolveTake_bounds` — how many
  rows are fetched.
* `Selection.page_eq_map` — the statement for a page binds its limits last, whatever its names are.
* `Config.load_bounds_pages` — no query gets an unbounded page.
-/

namespace SqlFilter

/-! ## Blank texts -/

/-- Nothing is left of a text exactly if all its characters are blank. -/
theorem Text.trim_eq_empty_iff (s : String) :
    (Text.trim s).isEmpty = true ↔ ∀ c ∈ s.toList, isBlank c = true := by
  rw [String.isEmpty_iff, trim, String.ofList_eq_empty_iff, trimChars, List.reverse_eq_nil_iff,
    List.dropWhile_eq_nil_iff]
  constructor
  · intro h c hc
    rw [← List.takeWhile_append_dropWhile (p := isBlank) (l := s.toList), List.mem_append] at hc
    rcases hc with hc | hc
    · exact List.mem_takeWhile_imp hc
    · exact h c (List.mem_reverse.mpr hc)
  · intro h c hc
    exact h c ((List.dropWhile_suffix isBlank).subset (List.mem_reverse.mp hc))

/-! ## Usable configurations -/

namespace Config

/-- A configuration that can be used: its alias is not blank, some texts and filters are within its
limits, and the usual page has a row and is not larger than the largest one. -/
structure IsUsable (c : Config) : Prop where
  table : ∃ x ∈ c.compiler.table.toList, Text.isBlank x = false
  maxBytes : 0 < c.limits.maxBytes
  maxDepth : 0 < c.limits.maxDepth
  defaultTake : 0 < c.paging.defaultTake
  maxTake : c.paging.defaultTake ≤ c.paging.maxTake

/-- **The check passes what is usable**, and does not change it.

**Proof sketch.** The check is a row of five tests, each of which denies one condition of being
usable. If it passes, none of them applied. If all conditions hold, none of them applies and the
settings are returned as they are. -/
theorem check_eq_ok_iff {c d : Config} : c.check = .ok d ↔ c = d ∧ c.IsUsable := by
  have htable : (Text.trim c.compiler.table).isEmpty = true ↔
      ¬ ∃ x ∈ c.compiler.table.toList, Text.isBlank x = false := by
    rw [Text.trim_eq_empty_iff]
    simp
  rw [check]
  constructor
  · intro h
    split at h
    · simp at h
    split at h
    · simp at h
    split at h
    · simp at h
    split at h
    · simp at h
    split at h
    · simp at h
    rename_i hblank hbytes hdepth hdefault hmax
    exact ⟨Except.ok.inj h, not_not.mp (mt htable.mpr hblank), by omega, by omega, by omega,
      by omega⟩
  · rintro ⟨rfl, h⟩
    have hbytes := h.maxBytes
    have hdepth := h.maxDepth
    have hdefault := h.defaultTake
    have hmax := h.maxTake
    rw [if_neg fun hblank => htable.mp hblank h.table, if_neg (by omega), if_neg (by omega),
      if_neg (by omega), if_neg (by omega)]

variable {host : Host} {overrides : Overrides} {config : Config}

/-- What is made of files and overrides is usable. -/
private theorem isUsable_of_finish {files : List ConfigFile}
    (h : (finish host overrides files).result = .ok config) : config.IsUsable := by
  dsimp only [finish] at h
  obtain ⟨rfl, husable⟩ := check_eq_ok_iff.mp h
  exact husable

/-- What is loaded after the profile is usable. -/
private theorem isUsable_of_loadOverlay {files : List ConfigFile}
    (h : (loadOverlay host overrides files).result = .ok config) : config.IsUsable := by
  rw [loadOverlay] at h
  split at h
  · simp [fail] at h
  · exact isUsable_of_finish h
  · split at h
    · simp [fail] at h
    · exact isUsable_of_finish h

/-- **What is loaded is usable**, whatever the files and the overrides are. -/
theorem isUsable_of_load (h : (load host overrides).result = .ok config) : config.IsUsable := by
  rw [load] at h
  split at h
  · exact isUsable_of_loadOverlay h
  · split at h
    · simp [fail] at h
    · exact isUsable_of_loadOverlay h

end Config

/-! ## Limits -/

namespace Paging

variable {p : Paging}

/-- A positive number of rows is fetched as it is asked for, up to the largest size. -/
theorem resolveTake_of_pos {n : Int} (hn : 0 < n) : p.resolveTake (some n) = min n p.maxTake := by
  rw [resolveTake, Option.filter_some_pos (by simpa using hn), Option.getD_some]

/-- Where no positive number of rows is asked for, a page has the usual size. -/
theorem resolveTake_of_nonpos (hmax : p.defaultTake ≤ p.maxTake) {take : Option Int}
    (htake : ∀ n ∈ take, n ≤ 0) : p.resolveTake take = p.defaultTake := by
  have hnone : take.filter (fun n => 0 < n) = none := by
    cases take with
    | none => rfl
    | some n => simpa [Option.filter] using htake n rfl
  rw [resolveTake, hnone, Option.getD_none, Int.min_eq_left hmax]

/-- **A page has at least one row and at most the largest size.** -/
theorem resolveTake_bounds (hdefault : 0 < p.defaultTake) (hmax : p.defaultTake ≤ p.maxTake)
    (take : Option Int) : 1 ≤ p.resolveTake take ∧ p.resolveTake take ≤ p.maxTake := by
  by_cases h : ∃ n ∈ take, 0 < n
  · obtain ⟨n, rfl, hn⟩ := h
    rw [resolveTake_of_pos hn]
    omega
  · have hnonpos : ∀ n ∈ take, n ≤ 0 := fun n hn => Int.not_lt.mp fun hpos => h ⟨n, hn, hpos⟩
    rw [resolveTake_of_nonpos hmax hnonpos]
    omega

/-- As many rows are skipped as is asked for, if that is not negative. -/
theorem resolveSkip_of_nonneg {n : Int} (hn : 0 ≤ n) : resolveSkip (some n) = n := by
  rw [resolveSkip, Option.filter_some_pos (by simpa using hn), Option.getD_some]

/-- No row is skipped where no number is asked for that is not negative. -/
theorem resolveSkip_of_neg {skip : Option Int} (hskip : ∀ n ∈ skip, n < 0) :
    resolveSkip skip = 0 := by
  cases skip with
  | none => rfl
  | some n =>
    have hn : ¬ 0 ≤ n := Int.not_le.mpr (hskip n rfl)
    rw [resolveSkip, Option.filter_some_neg (by simpa using hn), Option.getD_none]

/-- A negative number of rows is never skipped. -/
theorem resolveSkip_nonneg (skip : Option Int) : 0 ≤ resolveSkip skip := by
  cases skip with
  | none => exact Int.le_refl 0
  | some n =>
    by_cases hn : 0 ≤ n
    · rwa [resolveSkip_of_nonneg hn]
    · have hzero : resolveSkip (some n) = 0 := resolveSkip_of_neg fun m hm => by cases hm; omega
      omega

end Paging

/-! ## Pages -/

/-- **The statement for a page** is what stands before its limits, expanded, and then the limits. Its
last two values are those of the limits, whatever names the rest of the statement has. -/
theorem Selection.page_eq_map (s : Selection) (paging : Paging) :
    s.page paging = (expand (s.pageParams paging) s.pageHead).map fun r =>
      ⟨r.sql ++ " LIMIT ? OFFSET ?", r.values ++
        [Json.ofInt (paging.resolveTake s.compiled.take),
          Json.ofInt (Paging.resolveSkip s.compiled.skip)]⟩ := by
  obtain ⟨htake, hskip⟩ := s.get?_pageParams_limits paging
  rw [page, expand_eq_map, expand_eq_map, expandChars_pageText_of_limits _ s htake hskip]
  cases expandChars (s.pageParams paging) s.pageHead.toList with
  | error e => rfl
  | ok r =>
    simp only [Except.map, Except.ok.injEq, BoundStatement.mk.injEq, and_true]
    rw [String.ofList_append, String.ofList_toList]

/-- **No query gets an unbounded page.** Whatever the files and the overrides are, if a configuration is
made of them, then

- its alias is not blank, its limits are positive, and the usual page has a row and is not larger than
  the largest one;
- the number of rows of a page is between one and the largest size: what is asked for up to that size, or
  the usual one where nothing positive is asked for;
- no negative number of rows is skipped: what is asked for, or none where that is negative or missing;
- the statement for a page of any compiled query binds these two numbers, as the hints of this query ask
  for them, after all values of what stands before its limits.

**Proof sketch.** A configuration is handed out only after it passed the check. The limits of a page are
looked up under their own names, after these were given the resolved numbers, and a blank separates them
from the rest of the statement. -/
theorem Config.load_bounds_pages (host : Host) (overrides : Overrides) (config : Config)
    (h : (load host overrides).result = .ok config) :
    ((∃ x ∈ config.compiler.table.toList, Text.isBlank x = false) ∧ 0 < config.limits.maxBytes ∧
      0 < config.limits.maxDepth ∧ 0 < config.paging.defaultTake ∧
      config.paging.defaultTake ≤ config.paging.maxTake) ∧
    (∀ take : Option Int,
      1 ≤ config.paging.resolveTake take ∧
        config.paging.resolveTake take ≤ config.paging.maxTake ∧
        (∀ n ∈ take, 0 < n → config.paging.resolveTake take = min n config.paging.maxTake) ∧
        ((∀ n ∈ take, n ≤ 0) → config.paging.resolveTake take = config.paging.defaultTake)) ∧
    (∀ skip : Option Int,
      0 ≤ Paging.resolveSkip skip ∧ (∀ n ∈ skip, 0 ≤ n → Paging.resolveSkip skip = n) ∧
        ((∀ n ∈ skip, n < 0) → Paging.resolveSkip skip = 0)) ∧
    ∀ s : Selection,
      s.page config.paging = (expand (s.pageParams config.paging) s.pageHead).map fun r =>
        ⟨r.sql ++ " LIMIT ? OFFSET ?", r.values ++
          [Json.ofInt (config.paging.resolveTake s.compiled.take),
            Json.ofInt (Paging.resolveSkip s.compiled.skip)]⟩ := by
  obtain ⟨htable, hbytes, hdepth, hdefault, hmax⟩ := isUsable_of_load h
  refine ⟨⟨htable, hbytes, hdepth, hdefault, hmax⟩, fun take => ?_, fun skip => ?_, fun s =>
    s.page_eq_map config.paging⟩
  · obtain ⟨hlower, hupper⟩ := Paging.resolveTake_bounds hdefault hmax take
    refine ⟨hlower, hupper, fun n hn hpos => ?_, Paging.resolveTake_of_nonpos hmax⟩
    obtain rfl := Option.mem_def.mp hn
    exact Paging.resolveTake_of_pos hpos
  · refine ⟨Paging.resolveSkip_nonneg skip, fun n hn hnonneg => ?_, Paging.resolveSkip_of_neg⟩
    obtain rfl := Option.mem_def.mp hn
    exact Paging.resolveSkip_of_nonneg hnonneg

/-- A run that finds two files: the profile sets the largest page only, and the file of the project the
usual one only. -/
def Host.withTwoFiles : Host where
  directories := ⟨some "/home/user", "/project"⟩
  entry := fun path =>
    if path = "/home/user/.toolkitq/toolkitq.json" then
      .file "\x7b\"pagination\":\x7b\"max_take\":20\x7d\x7d"
    else if path = "/project/toolkitq.json" then
      .file "\x7b\"pagination\":\x7b\"default_take\":7\x7d\x7d"
    else .missing
  input := none

/-- The tickets of one tenant, by a query that asks for more rows than any page has and to skip less than
none. -/
def Selection.greedy : Selection where
  table := "tickets"
  naming := CompilerOptions.default.naming
  compiled := { Query.empty with skip := some (-3), take := some 1000 }.compile .default
    (.ofList [("tenant", .str "acme")])

/-- Both files together set the sizes of pages. So a greedy query gets the largest page, from the first
row on. -/
theorem Config.load_bounds_pages_twoFiles :
    let paging : Paging := ⟨7, 20⟩
    let config : Config := ⟨.default, .default, paging, none⟩
    (load .withTwoFiles .empty).result = .ok config ∧
      1 ≤ paging.resolveTake (some 1000) ∧ paging.resolveTake (some 1000) = 20 ∧
      Selection.greedy.page paging = .ok
        ⟨"SELECT target.* FROM tickets AS target WHERE target.tenant = ? LIMIT ? OFFSET ?",
          [.str "acme", Json.ofInt 20, Json.ofInt 0]⟩ := by
  intro paging config
  have hload : (load .withTwoFiles .empty).result = .ok config := by decide +kernel
  obtain ⟨-, htake, hskip, hpage⟩ := load_bounds_pages .withTwoFiles .empty config hload
  obtain ⟨hlower, -, hasked, -⟩ := htake (some 1000)
  have htaken : paging.resolveTake Selection.greedy.compiled.take = 20 := hasked 1000 rfl (by decide)
  have hskipped : Paging.resolveSkip Selection.greedy.compiled.skip = 0 :=
    (hskip (some (-3))).2.2 (by simp)
  have hhead : expand (Selection.greedy.pageParams ⟨7, 20⟩) Selection.greedy.pageHead = .ok
      ⟨"SELECT target.* FROM tickets AS target WHERE target.tenant = ?", [.str "acme"]⟩ := rfl
  refine ⟨hload, hlower, htaken, (hpage Selection.greedy).trans ?_⟩
  rw [hhead, htaken, hskipped]
  rfl

end SqlFilter
