import Mathlib.Data.Option.Basic
import SqlFilter.Config
import SqlFilter.Proofs.Records

set_option relaxedAutoImplicit false
set_option autoImplicit false

/-!
# Layers of configuration

A configuration has eight settings, and each of them is decided by itself: by the overrides if they give
it, else by the last file that sets it, else by the built-in value. A file sets what it writes with
something other than `null`; so a file that has a section leaves open what the section does not set.

## Design

The settings are values of a type, so that the law of layers is stated once for all of them. The type of
what can be set depends on the setting.

## Main definitions

* `Setting`, `Sections.get?`, `Overrides.get?`, `Setting.builtIn?` — the settings and their layers.
* `Config.get?` — what is in force.
* `Config.mergedSections` — files laid over one another.
* `Setting.written?` — what the document of a file gives for a setting.

## Main results

* `Sections.get?_onTopOf`, `Config.get?_ofLayers` — one file laid over another, and all layers.
* `Sections.onTopOf_assoc`, `Sections.onTopOf_empty`, `Sections.empty_onTopOf` — laws of merging.
* `ConfigFile.isSome_get?_of_decode` — a file that is decoded sets what it writes.
* `Config.last_layer_decides` — the law of layers.
-/

namespace SqlFilter

/-! ## Settings -/

/-- The settings of a configuration. -/
inductive Setting where
  | table
  | quote
  | priority
  | maxBytes
  | maxDepth
  | defaultTake
  | maxTake
  | database
deriving DecidableEq

/-- What a setting can be set to. -/
abbrev Setting.Value : Setting → Type
  | .table | .database => String
  | .quote => Quote
  | .priority => Priority
  | .maxBytes | .maxDepth => Nat
  | .defaultTake | .maxTake => Int

/-- What sections set. -/
def Sections.get? (s : Sections) : (k : Setting) → Option k.Value
  | .table => s.compiler.bind CompilerSection.table
  | .quote => s.compiler.bind CompilerSection.quote
  | .priority => s.compiler.bind CompilerSection.priority
  | .maxBytes => s.limits.bind LimitsSection.maxBytes
  | .maxDepth => s.limits.bind LimitsSection.maxDepth
  | .defaultTake => s.paging.bind PagingSection.defaultTake
  | .maxTake => s.paging.bind PagingSection.maxTake
  | .database => s.database.bind DatabaseSection.path

/-- What overrides give. There are none for limits and page sizes. -/
def Overrides.get? (o : Overrides) : (k : Setting) → Option k.Value
  | .table => o.table
  | .quote => o.quote
  | .priority => o.priority
  | .database => o.database
  | .maxBytes | .maxDepth | .defaultTake | .maxTake => none

/-- The built-in value of a setting. There is no built-in database. -/
def Setting.builtIn? : (k : Setting) → Option k.Value
  | .table => some CompilerOptions.default.table
  | .quote => some CompilerOptions.default.quote
  | .priority => some CompilerOptions.default.priority
  | .maxBytes => some Limits.default.maxBytes
  | .maxDepth => some Limits.default.maxDepth
  | .defaultTake => some Paging.default.defaultTake
  | .maxTake => some Paging.default.maxTake
  | .database => none

/-- What is in force once a value is chosen: the path of a database is expanded, and every other value is
taken as it is. -/
def Setting.settle (directories : Directories) : (k : Setting) → k.Value → k.Value
  | .database, path => directories.expand path
  | .table, v | .quote, v | .priority, v | .maxBytes, v | .maxDepth, v | .defaultTake, v
  | .maxTake, v => v

/-- Only the path of a database is expanded. -/
theorem Setting.settle_of_ne (directories : Directories) {k : Setting} (hk : k ≠ .database)
    (v : k.Value) : k.settle directories v = v := by
  cases k with
  | database => exact absurd rfl hk
  | table | quote | priority | maxBytes | maxDepth | defaultTake | maxTake => rfl

/-- What is in force. Only the database may be without a value. -/
def Config.get? (c : Config) : (k : Setting) → Option k.Value
  | .table => some c.compiler.table
  | .quote => some c.compiler.quote
  | .priority => some c.compiler.priority
  | .maxBytes => some c.limits.maxBytes
  | .maxDepth => some c.limits.maxDepth
  | .defaultTake => some c.paging.defaultTake
  | .maxTake => some c.paging.maxTake
  | .database => c.database

/-! ## Merging -/

/-- What two merged sections set is what the later one sets, or else the earlier one. -/
theorem bind_merge {σ α : Type} {onTopOf : σ → σ → σ} {f : σ → Option α}
    (h : ∀ later earlier, f (onTopOf later earlier) = (f later).or (f earlier))
    (later earlier : Option σ) :
    (Option.merge onTopOf later earlier).bind f = (later.bind f).or (earlier.bind f) := by
  cases later <;> cases earlier <;> simp [h]

instance : Std.Associative CompilerSection.onTopOf where
  assoc a b c := by simp only [CompilerSection.onTopOf, Option.or_assoc]

instance : Std.Associative LimitsSection.onTopOf where
  assoc a b c := by simp only [LimitsSection.onTopOf, Option.or_assoc]

instance : Std.Associative PagingSection.onTopOf where
  assoc a b c := by simp only [PagingSection.onTopOf, Option.or_assoc]

instance : Std.Associative DatabaseSection.onTopOf where
  assoc a b c := by simp only [DatabaseSection.onTopOf, Option.or_assoc]

namespace Sections

/-- **What two files set together**: what the later one sets, or else the earlier one. -/
theorem get?_onTopOf (later earlier : Sections) (k : Setting) :
    (later.onTopOf earlier).get? k = (later.get? k).or (earlier.get? k) := by
  cases k <;> exact bind_merge (fun _ _ => rfl) _ _

/-- No file sets nothing. -/
theorem get?_empty (k : Setting) : empty.get? k = none := by
  cases k <;> rfl

/-- It does not matter which of three files are merged first. -/
theorem onTopOf_assoc (a b c : Sections) :
    (a.onTopOf b).onTopOf c = a.onTopOf (b.onTopOf c) := by
  simp only [onTopOf, Std.Associative.assoc]

/-- Laying a file over none changes nothing. -/
theorem onTopOf_empty (s : Sections) : s.onTopOf empty = s := by
  simp only [onTopOf, empty, Option.merge_none_right]

/-- Laying none over a file changes nothing. -/
theorem empty_onTopOf (s : Sections) : empty.onTopOf s = s := by
  simp only [onTopOf, empty, Option.merge_none_left]

end Sections

namespace Config

/-- The sections of files that are laid over one another, the first file lowest. -/
def mergedSections (files : List ConfigFile) : Sections :=
  files.foldl (fun earlier file => file.sections.onTopOf earlier) .empty

/-- Files laid over some sections: the last file that sets a setting decides, or else the sections do. -/
private theorem get?_foldl_onTopOf (files : List ConfigFile) (start : Sections) (k : Setting) :
    (files.foldl (fun earlier file => file.sections.onTopOf earlier) start).get? k =
      ((files.filterMap fun file => file.sections.get? k).getLast?).or (start.get? k) := by
  induction files generalizing start with
  | nil => rfl
  | cons file files ih =>
    rw [List.foldl_cons, ih, Sections.get?_onTopOf, ← Option.or_assoc, List.filterMap_cons]
    cases hfile : file.sections.get? k with
    | none => rw [Option.or_none]
    | some v =>
      have hlast := @List.getLast?_append _ [v] (files.filterMap fun file => file.sections.get? k)
      rw [List.singleton_append, List.getLast?_singleton] at hlast
      rw [← hlast]

/-- **The last file that sets a setting decides.** -/
theorem get?_mergedSections (files : List ConfigFile) (k : Setting) :
    (mergedSections files).get? k =
      (files.filterMap fun file => file.sections.get? k).getLast? := by
  rw [mergedSections, get?_foldl_onTopOf, Sections.get?_empty, Option.or_none]

/-- **What is in force**: what the overrides give, else what the sections set, else what is built in. -/
theorem get?_ofLayers (directories : Directories) (overrides : Overrides) (s : Sections) (k : Setting) :
    (ofLayers directories overrides s).get? k =
      (((overrides.get? k).or (s.get? k)).or k.builtIn?).map (k.settle directories) := by
  cases k with
  | table | quote | priority =>
    simp only [ofLayers, compilerOf, get?, Overrides.get?, Sections.get?, Setting.builtIn?]
    cases s.compiler <;> simp [Setting.settle_of_ne]
  | maxBytes | maxDepth =>
    simp only [ofLayers, limitsOf, get?, Overrides.get?, Sections.get?, Setting.builtIn?]
    cases s.limits <;> simp [Setting.settle_of_ne]
  | defaultTake | maxTake =>
    simp only [ofLayers, pagingOf, get?, Overrides.get?, Sections.get?, Setting.builtIn?]
    cases s.paging <;> simp [Setting.settle_of_ne]
  | database =>
    rw [Setting.builtIn?, Option.or_none]
    rfl

end Config

/-! ## What a file sets -/

namespace Json

/-- A document is `null`. -/
def Document.isNull : Document → Bool
  | .null => true
  | _ => false

/-- What a document gives for one of the fields of a record. `null` gives nothing. -/
def Document.given? (names : List String) (name : String) (d : Document) : Option Document :=
  ((d.record? names true).bind fun record => record name).filter fun v => !v.isNull

namespace Decoder

variable {α σ : Type} {record : Document.Record} {name : String}

/-- An optional field has a value if the record has something other than `null` for it. -/
theorem isSome_of_optional {item : Document → Option α} {v : Option α}
    (h : optional record name item = some v) :
    v.isSome = ((record name).filter fun d => !d.isNull).isSome := by
  rcases optional_cases h with ⟨rfl, hnone | hnull⟩ | ⟨d, x, hd, hne, -, rfl⟩
  · rw [hnone]
    rfl
  · rw [hnull]
    rfl
  · have hnull : d.isNull = false := by
      cases d with
      | null => exact absurd rfl hne
      | bool | num | str | arr | obj => rfl
    simp [hd, hnull]

/-- A field of an optional section has a value if the document of the section gives it. -/
theorem isSome_bind_of_optional {item : Document → Option σ} {section? : Option σ}
    (h : optional record name item = some section?) {f : σ → Option α} {names : List String}
    {field : String} (hitem : ∀ d s, item d = some s → (f s).isSome = (d.given? names field).isSome) :
    (section?.bind f).isSome = ((record name).bind (Document.given? names field)).isSome := by
  rcases optional_cases h with ⟨rfl, hnone | hnull⟩ | ⟨d, s, hd, -, hs, rfl⟩
  · rw [hnone]
    rfl
  · rw [hnull]
    rfl
  · rw [hd, Option.bind_some, Option.bind_some, hitem d s hs]

end Decoder

end Json

open Json

/-- The section of a file in which a setting stands. -/
def Setting.sectionName : Setting → String
  | .table | .quote | .priority => "compiler"
  | .maxBytes | .maxDepth => "limits"
  | .defaultTake | .maxTake => "pagination"
  | .database => "database"

/-- The names in the section of a setting. -/
def Setting.sectionFields : Setting → List String
  | .table | .quote | .priority => ["alias", "quote", "order_priority"]
  | .maxBytes | .maxDepth => ["max_json_bytes", "max_depth"]
  | .defaultTake | .maxTake => ["default_take", "max_take"]
  | .database => ["path"]

/-- The name of a setting in its section. -/
def Setting.name : Setting → String
  | .table => "alias"
  | .quote => "quote"
  | .priority => "order_priority"
  | .maxBytes => "max_json_bytes"
  | .maxDepth => "max_depth"
  | .defaultTake => "default_take"
  | .maxTake => "max_take"
  | .database => "path"

/-- What the document of a file gives for a setting. -/
def Setting.written? (k : Setting) : Document → Option Document
  | .obj members =>
    (Document.findMember k.sectionName members).bind (Document.given? k.sectionFields k.name)
  | _ => none

/-- A section that is decoded sets what its document gives. -/
theorem CompilerSection.isSome_of_decode {budget : Nat} {d : Document} {s : CompilerSection}
    (h : decode budget d = some s) :
    s.table.isSome = (d.given? Setting.table.sectionFields "alias").isSome ∧
      s.quote.isSome = (d.given? Setting.quote.sectionFields "quote").isSome ∧
      s.priority.isSome = (d.given? Setting.priority.sectionFields "order_priority").isSome := by
  cases budget with
  | zero => simp [decode] at h
  | succ budget =>
    simp only [decode, Option.bind_eq_bind, Option.bind_eq_some_iff, Option.pure_def] at h
    obtain ⟨record, hrecord, table, htable, quote, hquote, priority, hpriority, hs⟩ := h
    obtain rfl := Option.some.inj hs
    simp only [Document.given?, Setting.sectionFields, hrecord, Option.bind_some]
    exact ⟨Decoder.isSome_of_optional htable, Decoder.isSome_of_optional hquote,
      Decoder.isSome_of_optional hpriority⟩

@[inherit_doc CompilerSection.isSome_of_decode]
theorem LimitsSection.isSome_of_decode {budget : Nat} {d : Document} {s : LimitsSection}
    (h : decode budget d = some s) :
    s.maxBytes.isSome = (d.given? Setting.maxBytes.sectionFields "max_json_bytes").isSome ∧
      s.maxDepth.isSome = (d.given? Setting.maxDepth.sectionFields "max_depth").isSome := by
  cases budget with
  | zero => simp [decode] at h
  | succ budget =>
    simp only [decode, Option.bind_eq_bind, Option.bind_eq_some_iff, Option.pure_def] at h
    obtain ⟨record, hrecord, maxBytes, hmaxBytes, maxDepth, hmaxDepth, hs⟩ := h
    obtain rfl := Option.some.inj hs
    simp only [Document.given?, Setting.sectionFields, hrecord, Option.bind_some]
    exact ⟨Decoder.isSome_of_optional hmaxBytes, Decoder.isSome_of_optional hmaxDepth⟩

@[inherit_doc CompilerSection.isSome_of_decode]
theorem PagingSection.isSome_of_decode {budget : Nat} {d : Document} {s : PagingSection}
    (h : decode budget d = some s) :
    s.defaultTake.isSome = (d.given? Setting.defaultTake.sectionFields "default_take").isSome ∧
      s.maxTake.isSome = (d.given? Setting.maxTake.sectionFields "max_take").isSome := by
  cases budget with
  | zero => simp [decode] at h
  | succ budget =>
    simp only [decode, Option.bind_eq_bind, Option.bind_eq_some_iff, Option.pure_def] at h
    obtain ⟨record, hrecord, defaultTake, hdefaultTake, maxTake, hmaxTake, hs⟩ := h
    obtain rfl := Option.some.inj hs
    simp only [Document.given?, Setting.sectionFields, hrecord, Option.bind_some]
    exact ⟨Decoder.isSome_of_optional hdefaultTake, Decoder.isSome_of_optional hmaxTake⟩

@[inherit_doc CompilerSection.isSome_of_decode]
theorem DatabaseSection.isSome_of_decode {budget : Nat} {d : Document} {s : DatabaseSection}
    (h : decode budget d = some s) :
    s.path.isSome = (d.given? Setting.database.sectionFields "path").isSome := by
  cases budget with
  | zero => simp [decode] at h
  | succ budget =>
    simp only [decode, Option.bind_eq_bind, Option.bind_eq_some_iff, Option.pure_def] at h
    obtain ⟨record, hrecord, path, hpath, hs⟩ := h
    obtain rfl := Option.some.inj hs
    simp only [Document.given?, Setting.sectionFields, hrecord, Option.bind_some]
    exact Decoder.isSome_of_optional hpath

/-- **A file that is decoded sets what it writes** with something other than `null`.

**Proof sketch.** A decoded file is an object of four sections, each of which may be missing or
`null`. A setting is one field of one section, and the lemma about that section says that its field
is set exactly if it is written. -/
theorem ConfigFile.isSome_get?_of_decode {budget : Nat} {d : Document} {file : ConfigFile}
    (h : decode budget d = some file) (k : Setting) :
    (file.sections.get? k).isSome = (k.written? d).isSome := by
  rw [decode.eq_def] at h
  split at h
  · rename_i budget members
    simp only [Option.bind_eq_bind, Option.bind_eq_some_iff, Option.pure_def] at h
    obtain ⟨record, hrecord, unknown, -, compiler, hcompiler, limits, hlimits, paging, hpaging, database,
      hdatabase, hfile⟩ := h
    obtain rfl := Option.some.inj hfile
    obtain ⟨-, hmember⟩ := Document.eq_of_record?_obj hrecord
    subst hmember
    cases k with
    | table =>
      exact Decoder.isSome_bind_of_optional hcompiler fun d s hs =>
        (CompilerSection.isSome_of_decode hs).1
    | quote =>
      exact Decoder.isSome_bind_of_optional hcompiler fun d s hs =>
        (CompilerSection.isSome_of_decode hs).2.1
    | priority =>
      exact Decoder.isSome_bind_of_optional hcompiler fun d s hs =>
        (CompilerSection.isSome_of_decode hs).2.2
    | maxBytes =>
      exact Decoder.isSome_bind_of_optional hlimits fun d s hs =>
        (LimitsSection.isSome_of_decode hs).1
    | maxDepth =>
      exact Decoder.isSome_bind_of_optional hlimits fun d s hs =>
        (LimitsSection.isSome_of_decode hs).2
    | defaultTake =>
      exact Decoder.isSome_bind_of_optional hpaging fun d s hs =>
        (PagingSection.isSome_of_decode hs).1
    | maxTake =>
      exact Decoder.isSome_bind_of_optional hpaging fun d s hs =>
        (PagingSection.isSome_of_decode hs).2
    | database =>
      exact Decoder.isSome_bind_of_optional hdatabase fun d s hs =>
        DatabaseSection.isSome_of_decode hs
  · simp at h

/-! ## The law of layers -/

namespace Config

/-- **The last layer decides.** Let any number of files be laid over one another, as they are when a
configuration is loaded, and any overrides over them.

- Each of the eight settings has the value that the overrides give, else that of the last file that sets
  it, else the built-in one. The path of a database is expanded, whichever layer it comes from.
- A later file that leaves a setting open does not change it, whatever else it sets. A file that is
  decoded leaves open what its document does not give in the section of the setting, or gives as `null`.
- A setting depends on nothing but what the layers say about this setting.
- It does not matter in which groups files are merged, and a file that sets nothing changes nothing.

**Proof sketch.** Of two files that are merged the later one decides, setting by setting, and by induction
this is so for any number of them. -/
theorem last_layer_decides (directories : Directories) (overrides : Overrides)
    (files : List ConfigFile) :
    let config := ofLayers directories overrides (mergedSections files)
    (∀ host : Host, host.directories = directories →
      (finish host overrides files).result = config.check) ∧
    (∀ k : Setting, config.get? k =
      (((overrides.get? k).or (files.filterMap fun file => file.sections.get? k).getLast?).or
        k.builtIn?).map (k.settle directories)) ∧
    (∀ (k : Setting) (later : ConfigFile), later.sections.get? k = none →
      (ofLayers directories overrides (mergedSections (files ++ [later]))).get? k = config.get? k) ∧
    (∀ (k : Setting) (budget : Nat) (d : Document) (file : ConfigFile),
      ConfigFile.decode budget d = some file →
        (file.sections.get? k).isSome = (k.written? d).isSome) ∧
    (∀ (k : Setting) (overrides' : Overrides) (files' : List ConfigFile),
      overrides'.get? k = overrides.get? k →
      files'.map (fun file => file.sections.get? k) = files.map (fun file => file.sections.get? k) →
      (ofLayers directories overrides' (mergedSections files')).get? k = config.get? k) ∧
    (∀ a b c : Sections, (a.onTopOf b).onTopOf c = a.onTopOf (b.onTopOf c)) ∧
    ∀ s : Sections, Sections.empty.onTopOf s = s ∧ s.onTopOf .empty = s := by
  intro config
  have hlayers (overrides : Overrides) (files : List ConfigFile) (k : Setting) :
      (ofLayers directories overrides (mergedSections files)).get? k =
        (((overrides.get? k).or (files.filterMap fun file => file.sections.get? k).getLast?).or
          k.builtIn?).map (k.settle directories) := by
    rw [get?_ofLayers, get?_mergedSections]
  refine ⟨?_, hlayers overrides files, fun k later hlater => ?_, fun k budget d file hfile => ?_,
    fun k overrides' files' hoverrides hfiles => ?_, Sections.onTopOf_assoc, fun s => ⟨?_, ?_⟩⟩
  · rintro host rfl
    dsimp only [finish, config, mergedSections]
  · have hopen : ((files ++ [later]).filterMap fun file => file.sections.get? k) =
        files.filterMap fun file => file.sections.get? k := by
      have hnone : [later].filterMap (fun file => file.sections.get? k) = [] :=
        List.filterMap_cons_none (f := fun file : ConfigFile => file.sections.get? k) hlater
      rw [List.filterMap_append, hnone, List.append_nil]
    rw [hlayers, hlayers, hopen]
  · exact ConfigFile.isSome_get?_of_decode hfile k
  · have hset (files : List ConfigFile) : (files.filterMap fun file => file.sections.get? k) =
        (files.map fun file => file.sections.get? k).filterMap id := by
      rw [List.filterMap_map]
      rfl
    rw [hlayers, hlayers, hoverrides, hset, hset, hfiles]
  · exact s.empty_onTopOf
  · exact s.onTopOf_empty

/-- A profile, and a file laid over it with a `null` and with an empty section: these do not erase what the
profile sets. The path in the profile is expanded. -/
theorem last_layer_decides_openSections :
    let directories : Directories := ⟨some "/home/user", "/project"⟩
    let overrides : Overrides := { Overrides.empty with table := some "cli" }
    let profile : ConfigFile :=
      ⟨⟨some ⟨some "p", some .double, none⟩, none, some ⟨some 7, none⟩, some ⟨some "~/a.db"⟩⟩, []⟩
    let overlay : ConfigFile := ⟨⟨some ⟨some "o", none, some .magnitude⟩, none, none, some ⟨none⟩⟩, []⟩
    let d : Document := .obj [(some "database", .obj []), (some "compiler", .obj [(some "quote", .null),
      (some "order_priority", .str (some "magnitude")), (some "alias", .str (some "o"))])]
    let config := ofLayers directories overrides (mergedSections [profile, overlay])
    ConfigFile.decode 127 d = some overlay ∧
      (∀ k : Setting, (overlay.sections.get? k).isSome = (k.written? d).isSome) ∧
      config.get? .quote = some .double ∧ config.get? .database = some "/home/user/a.db" ∧
      config.get? .priority = some .magnitude ∧ config.get? .table = some "cli" ∧
      config.get? .defaultTake = some 7 ∧ config.get? .maxTake = some 500 := by
  intro directories overrides profile overlay d config
  have hdecode : ConfigFile.decode 127 d = some overlay := by decide +kernel
  obtain ⟨-, hprofile, hopen, hset, -⟩ := last_layer_decides directories overrides [profile]
  obtain ⟨-, hboth, -⟩ := last_layer_decides directories overrides [profile, overlay]
  exact ⟨hdecode, fun k => hset k 127 d overlay hdecode,
    (hopen .quote overlay rfl).trans (hprofile .quote),
    (hopen .database overlay rfl).trans ((hprofile .database).trans (by decide +kernel)),
    hboth .priority, hboth .table, hboth .defaultTake, hboth .maxTake⟩

end Config

end SqlFilter
