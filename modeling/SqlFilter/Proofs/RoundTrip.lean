import SqlFilter.Proofs.Json.Slots
import SqlFilter.Proofs.Tree

set_option relaxedAutoImplicit false
set_option autoImplicit false

/-!
# Queries survive being written and read

A query is written as one object: the slots of its filter and then those of its hints. What is absent is
left out, what is present and empty is not. Reading the text gives the same query, with the same order
in every map.

## Main definitions

* `OperatorMaps.slots`, `Expr.slots`, `Query.hintSlots` — what maps, filters and hints are written in.
* `Query.IsIntegral` — queries whose numbers are integers in the ranges of their places.

## Main results

* `Expr.decode_ofJson` — a filter is decoded to what was written.
* `Query.decode_ofJson` — a query is decoded to what was written.
* `Query.parse_compact` — the text of a query is parsed to the query.
-/

namespace SqlFilter

open Json Json.Document Json.Decoder

/-! ## Operands and maps -/

/-- An operand is decoded to what was written. -/
theorem Kind.decode_ofJson {k : Kind} (x : k.Operand) {budget : Nat}
    (h : (k.toJson x).nesting ≤ budget) : k.decode budget (ofJson (k.toJson x)) = some x := by
  have hscalar (s : Scalar) (budget : Nat) : Scalar.decode budget (ofJson s.toJson) = some s := by
    cases s <;> rfl
  cases k with
  | scalars => exact hscalar x budget
  | patterns => rfl
  | members =>
    obtain ⟨b, rfl, -⟩ := nesting_arr_le_iff.mp h
    exact list_ofJson x fun s _ => hscalar s b
  | nulls => rfl

namespace OperatorMaps

/-- The slots of the maps of a node. -/
def slots (maps : OperatorMaps) : List (String × Option Json) :=
  Operator.declared.map fun o => (o.name, (maps o).map (mapToJson o.kind))

/-- Maps are written in their slots. -/
theorem toMembers_eq_present (maps : OperatorMaps) : maps.toMembers = Json.present maps.slots := by
  rw [toMembers, present, List.map_filterMap, slots, Json.present, List.filterMap_map]
  refine List.filterMap_congr fun o _ => ?_
  simp [Function.comp_def]

/-- The map of a kind is decoded to what was written. -/
theorem decodeMap_ofJson {k : Kind} (m : FieldMap k.Operand) {budget : Nat}
    (h : (mapToJson k m).nesting ≤ budget) : decodeMap k budget (ofJson (mapToJson k m)) = some m := by
  obtain ⟨b, rfl, hmembers⟩ := nesting_obj_le_iff.mp h
  exact fieldMap_ofJson m fun e he => Kind.decode_ofJson e.2
    (hmembers (e.1, k.toJson e.2) (List.mem_map_of_mem he))

/-- **The maps of a node** are decoded to what was written. -/
theorem decode_eq_some {maps : OperatorMaps} {record : Record} {budget : Nat}
    (hrecord : ∀ s ∈ maps.slots, record s.1 = s.2.map ofJson)
    (hnesting : ∀ m ∈ maps.toMembers, m.2.nesting ≤ budget) : decode budget record = some maps := by
  rw [decode, Operator.tabulate?_eq_some_iff]
  intro o
  have hslot : (o.name, (maps o).map (mapToJson o.kind)) ∈ maps.slots :=
    List.mem_map_of_mem o.mem_declared
  refine optional_eq_some (hrecord _ hslot) (fun m _ => by simp [mapToJson]) fun m hm => ?_
  refine decodeMap_ofJson m (hnesting (o.name, mapToJson o.kind m) ?_)
  rw [toMembers_eq_present, mem_present_iff]
  rw [Option.mem_def.mp hm] at hslot
  exact hslot

end OperatorMaps

/-! ## Filters -/

namespace Expr

/-- The slots of a filter: those of the maps of its root, and one for each combinator. -/
def slots : Expr → List (String × Option Json)
  | .node maps not nor and or =>
    maps.slots ++ [("not", not.map toJson), ("nor", nor.map toJson),
      ("and", and.map fun es => .arr (es.map toJson)), ("or", or.map fun es => .arr (es.map toJson))]

/-- The JSON values of a list of filters. -/
theorem toJsonAll_eq_map (es : List Expr) : toJsonAll es = es.map toJson := by
  induction es with
  | nil => rfl
  | cons e es ih => rw [toJsonAll, ih]; rfl

/-- A filter is written in its slots. -/
theorem toMembers_eq_present (e : Expr) : e.toMembers = present e.slots := by
  obtain ⟨maps, not, nor, and, or⟩ := e
  rw [slots, present_append, ← OperatorMaps.toMembers_eq_present]
  cases not <;> cases nor <;> cases and <;> cases or <;>
    simp [toMembers, present, toJsonAll_eq_map, toJson]

/-- The slots of a filter are named like the members of a node. -/
theorem map_fst_slots (e : Expr) : e.slots.map Prod.fst = memberNames := by
  obtain ⟨maps, not, nor, and, or⟩ := e
  simp [slots, OperatorMaps.slots, memberNames, Function.comp_def]

/-- The names of the members of a node are different. -/
theorem nodup_memberNames : (memberNames ++ Query.hintNames).Nodup := by decide

/-- A filter is decoded to what was written, within any budget that its nesting does not exceed. -/
def DecodesBack (e : Expr) : Prop :=
  ∀ budget, e.toJson.nesting ≤ budget → decode budget (ofJson e.toJson) = some e

/-- **A node** is decoded to what was written, if its children are.

**Proof sketch.** The record has at each name what the node has there. The operator maps are decoded
back on their own. Each combinator is missing, or its child or its children are decoded back by
hypothesis, with the nesting that is left for them. -/
theorem ofRecord?_eq_some {maps : OperatorMaps} {not nor : Option Expr} {and or : Option (List Expr)}
    {record : Record} {budget : Nat}
    (hrecord : ∀ s ∈ (Expr.node maps not nor and or).slots, record s.1 = s.2.map ofJson)
    (hnesting : ∀ m ∈ (Expr.node maps not nor and or).toMembers, m.2.nesting ≤ budget)
    (hand : ∀ e ∈ and.getD [], DecodesBack e) (hnot : ∀ e ∈ not.toList, DecodesBack e)
    (hnor : ∀ e ∈ nor.toList, DecodesBack e) (hor : ∀ e ∈ or.getD [], DecodesBack e) :
    ofRecord? budget (decode budget) (list decode budget) record =
      some (.node maps not nor and or) := by
  simp only [toMembers_eq_present, mem_present_iff] at hnesting
  have hmaps : OperatorMaps.decode budget record = some maps := by
    refine OperatorMaps.decode_eq_some (fun s hs => hrecord s (List.mem_append_left _ hs)) fun m hm => ?_
    rw [OperatorMaps.toMembers_eq_present, mem_present_iff] at hm
    exact hnesting m (List.mem_append_left _ hm)
  have hchild {n : String} {child : Option Expr}
      (hslot : (n, child.map toJson) ∈ (Expr.node maps not nor and or).slots)
      (h : ∀ e ∈ child.toList, DecodesBack e) :
      optional record n (decode budget) = some child := by
    refine optional_eq_some (hrecord _ hslot) (fun e _ => by simp [toJson]) fun e he => ?_
    rw [Option.mem_def.mp he] at hslot
    exact h e (Option.mem_toList.mpr he) budget (hnesting (n, e.toJson) hslot)
  have hlist {n : String} {children : Option (List Expr)}
      (hslot : (n, children.map fun es => Json.arr (es.map toJson)) ∈
        (Expr.node maps not nor and or).slots)
      (h : ∀ e ∈ children.getD [], DecodesBack e) :
      optional record n (list decode budget) = some children := by
    refine optional_eq_some (hrecord _ hslot) (fun es _ => by simp) fun es hes => ?_
    rw [Option.mem_def.mp hes] at hslot h
    obtain ⟨b, rfl, hitems⟩ := nesting_arr_le_iff.mp (hnesting (n, .arr (es.map toJson)) hslot)
    exact list_ofJson es fun e he => h e he b (hitems _ (List.mem_map_of_mem he))
  have hnotSlot := hchild (n := "not") (by simp [slots]) hnot
  have hnorSlot := hchild (n := "nor") (by simp [slots]) hnor
  have handSlot := hlist (n := "and") (by simp [slots]) hand
  have horSlot := hlist (n := "or") (by simp [slots]) hor
  rw [ofRecord?, hmaps, hnotSlot, hnorSlot, handSlot, horSlot]
  rfl

/-- **A filter is decoded to what was written.**

**Proof sketch.** Induction on the filter. Its slots have different names, so that every map and every
child is found in the record of the object that it is written as. -/
theorem decode_ofJson (e : Expr) : DecodesBack e := by
  induction e using inductionOn with
  | node maps not nor and or hand hnot hnor hor =>
    intro budget hnesting
    obtain ⟨b, rfl, hmembers⟩ := nesting_obj_le_iff.mp hnesting
    have hnodup : ((Expr.node maps not nor and or).slots.map Prod.fst).Nodup := by
      rw [map_fst_slots]
      exact nodup_memberNames.of_append_left
    obtain ⟨record, hread, hrecord⟩ := exists_record?_present hnodup memberNames
    rw [decode_succ, toJson, ofJson, toMembers_eq_present, hread, Option.bind_some,
      ofRecord?_eq_some hrecord hmembers hand hnot hnor hor]

end Expr

/-! ## Queries -/

/-- Integers of 64 bits, signed. -/
def Json.IsSigned (i : Int) : Prop := -0x8000000000000000 ≤ i ∧ i < 0x8000000000000000

instance (i : Int) : Decidable (IsSigned i) := inferInstanceAs (Decidable (_ ∧ _))

/-- A signed integer is decoded to what was written. -/
theorem Json.Decoder.integer_ofJson {i : Int} (h : IsSigned i) (budget : Nat) :
    integer budget (ofJson (Json.ofInt i)) = some i := by
  exact if_pos h

/-- A signed integer has 64 bits, whether these are signed or not. -/
theorem Json.hasWords_ofInt {i : Int} (h : IsSigned i) : (Json.ofInt i).HasWords := by
  intro n hn
  obtain ⟨hlow, hhigh⟩ := h
  rw [Json.ofInt, numbers, List.mem_singleton] at hn
  exact ⟨i, hn, hlow, by omega⟩

namespace Query

/-- **All numbers of a query are integers** in the ranges of their places: operands of 64 bits, signed
or unsigned, and numbers of hints of 64 bits, signed. -/
structure IsIntegral (q : Query) : Prop where
  operands : q.filter.toJson.HasWords
  order : ∀ order ∈ q.order, ∀ e ∈ order.entries, IsSigned e.2
  offset : ∀ i ∈ q.offset, IsSigned i
  limit : ∀ i ∈ q.limit, IsSigned i
  skip : ∀ i ∈ q.skip, IsSigned i
  take : ∀ i ∈ q.take, IsSigned i

/-- The slots of the hints of a query. -/
def hintSlots (q : Query) : List (String × Option Json) :=
  [("order", q.order.map orderToJson), ("where", q.rawCondition.map .str),
    ("offset", q.offset.map Json.ofInt), ("limit", q.limit.map Json.ofInt),
    ("exists", q.existsOnly.map .bool), ("skip", q.skip.map Json.ofInt), ("take", q.take.map Json.ofInt)]

/-- A query is written in the slots of its filter and of its hints. -/
theorem toJson_eq_present (q : Query) : q.toJson = .obj (present (q.filter.slots ++ q.hintSlots)) := by
  have hmember {α : Type} (n : String) (f : α → Json) (x : Option α)
      (rest : List (String × Option Json)) :
      present ((n, x.map f) :: rest) = member n f x ++ present rest := by
    cases x <;> rfl
  rw [toJson, present_append, ← Expr.toMembers_eq_present, hintSlots]
  simp only [hmember, List.append_assoc]
  simp [present]

/-- **The hints of a query** are decoded to what was written.

**Proof sketch.** Hint by hint: the record has at each name what the query has there, and a value
that is written is decoded to itself. For the integers this needs that they have 64 bits, and for
the order that its fields do. -/
theorem withHints?_eq_some {q : Query} {hints : Record} {budget : Nat} (h : q.IsIntegral)
    (hhints : ∀ s ∈ q.hintSlots, hints s.1 = s.2.map ofJson)
    (hnesting : ∀ order ∈ q.order, (orderToJson order).nesting ≤ budget) :
    withHints? budget hints q.filter = some q := by
  have hinteger {n : String} {x : Option Int} (hslot : (n, x.map Json.ofInt) ∈ q.hintSlots)
      (hx : ∀ i ∈ x, IsSigned i) : optional hints n (integer budget) = some x :=
    optional_eq_some (hhints _ hslot) (fun i _ => by simp [Json.ofInt]) fun i hi =>
      integer_ofJson (hx i hi) budget
  have horder : optional hints "order" (fieldMap integer budget) = some q.order := by
    refine optional_eq_some (hhints ("order", q.order.map orderToJson) (by simp [hintSlots]))
      (fun order _ => by simp [orderToJson]) fun order hmem => ?_
    obtain ⟨b, rfl, -⟩ := nesting_obj_le_iff.mp (hnesting order hmem)
    exact fieldMap_ofJson order fun e he => integer_ofJson (h.order order hmem e he) b
  have hwhere : optional hints "where" (string budget) = some q.rawCondition :=
    optional_eq_some (hhints ("where", q.rawCondition.map .str) (by simp [hintSlots]))
      (fun s _ => by simp) fun s _ => rfl
  have hexists : optional hints "exists" (Decoder.bool budget) = some q.existsOnly :=
    optional_eq_some (hhints ("exists", q.existsOnly.map .bool) (by simp [hintSlots]))
      (fun b _ => by simp) fun b _ => rfl
  have hoffset := hinteger (n := "offset") (by simp [hintSlots]) h.offset
  have hlimit := hinteger (n := "limit") (by simp [hintSlots]) h.limit
  have hskip := hinteger (n := "skip") (by simp [hintSlots]) h.skip
  have htake := hinteger (n := "take") (by simp [hintSlots]) h.take
  rw [withHints?, horder, hwhere, hoffset, hlimit, hexists, hskip, htake]
  rfl

/-- The slots of a query are named like its members. -/
theorem map_fst_slots (q : Query) :
    (q.filter.slots ++ q.hintSlots).map Prod.fst = Expr.memberNames ++ hintNames := by
  rw [List.map_append, Expr.map_fst_slots]
  rfl

/-- Of the members that a query is written as, those of its filter do not belong to its hints.

**Proof sketch.** No name of a node is the name of a hint, so all members of the filter are kept and
all those of the hints are dropped. -/
theorem others_ofMembers (q : Query) :
    others (ofMembers (present (q.filter.slots ++ q.hintSlots))) =
      ofMembers (present q.filter.slots) := by
  have hisHint {slots : List (String × Option Json)} {m : Option String × Document}
      (hm : m ∈ ofMembers (present slots)) :
      ∃ n ∈ slots.map Prod.fst, isHint m = hintNames.contains n := by
    rw [ofMembers_eq_map] at hm
    obtain ⟨m, hmem, rfl⟩ := List.mem_map.mp hm
    exact ⟨m.1, (map_fst_present_sublist slots).subset (List.mem_map_of_mem hmem), rfl⟩
  have hfilter : others (ofMembers (present q.filter.slots)) = ofMembers (present q.filter.slots) := by
    refine List.filter_eq_self.mpr fun m hm => ?_
    obtain ⟨n, hn, hhint⟩ := hisHint hm
    rw [Expr.map_fst_slots] at hn
    have hnot : ∀ n ∈ Expr.memberNames, hintNames.contains n = false := by decide
    rw [hhint, hnot n hn]
    rfl
  have hhints : others (ofMembers (present q.hintSlots)) = [] := by
    refine List.filter_eq_nil_iff.mpr fun m hm => ?_
    obtain ⟨n, hn, hhint⟩ := hisHint hm
    have hall : ∀ n ∈ hintNames, hintNames.contains n = true := by decide
    rw [hhint, hall n hn]
    decide
  rw [others] at hfilter hhints ⊢
  rw [present_append, ofMembers_eq_map, List.map_append, ← ofMembers_eq_map, ← ofMembers_eq_map,
    List.filter_append, hfilter, hhints, List.append_nil]

/-- **A query is decoded to what was written**, if its numbers are integers and its nesting does not
exceed the budget.

**Proof sketch.** No two slots of filter and hints have the same name. So the record of the hints has
what the hints were written as, and what is left when these are taken out is the filter. -/
theorem decode_ofJson {q : Query} {budget : Nat} (h : q.IsIntegral)
    (hnesting : q.toJson.nesting ≤ budget) :
    decode budget (ofJson q.toJson) = some q := by
  rw [toJson_eq_present] at hnesting ⊢
  obtain ⟨b, rfl, hmembers⟩ := nesting_obj_le_iff.mp hnesting
  have hfilterMembers : ∀ m ∈ q.filter.toMembers, m.2.nesting ≤ b := by
    intro m hm
    rw [Expr.toMembers_eq_present] at hm
    exact hmembers m (by rw [present_append]; exact List.mem_append_left _ hm)
  have hnodup : ((q.filter.slots ++ q.hintSlots).map Prod.fst).Nodup := by
    rw [map_fst_slots]
    exact Expr.nodup_memberNames
  have hnodupFilter : (q.filter.slots.map Prod.fst).Nodup := by
    rw [Expr.map_fst_slots]
    exact Expr.nodup_memberNames.of_append_left
  obtain ⟨hints, hread, hhints⟩ := exists_record?_present hnodup hintNames
  obtain ⟨record, hreadFilter, hrecord⟩ := exists_record?_present hnodupFilter Expr.memberNames
  have hfits : membersFit b (ofMembers (present q.filter.slots)) = true := by
    have hfilter : q.filter.toJson.nesting ≤ b + 1 := nesting_obj_le_iff.mpr ⟨b, rfl, hfilterMembers⟩
    have := fits_ofJson hfilter
    rwa [Expr.toJson, ofJson, fits, Expr.toMembers_eq_present] at this
  have hnode : Expr.ofRecord? b (Expr.decode b) (list Expr.decode b) record = some q.filter := by
    revert hrecord hfilterMembers
    obtain ⟨maps, not, nor, and, or⟩ := q.filter
    intro hfilterMembers hrecord
    exact Expr.ofRecord?_eq_some hrecord hfilterMembers (fun e _ => e.decode_ofJson)
      (fun e _ => e.decode_ofJson) (fun e _ => e.decode_ofJson) fun e _ => e.decode_ofJson
  have hquery : withHints? b hints q.filter = some q := by
    refine withHints?_eq_some h (fun s hs => hhints s (List.mem_append_right _ hs)) fun order horder => ?_
    refine hmembers ("order", orderToJson order) (mem_present_iff.mpr (List.mem_append_right _ ?_))
    simp [hintSlots, Option.mem_def.mp horder]
  rw [ofJson, decode_obj, hread, Option.bind_some, others_ofMembers, hreadFilter, Option.bind_some,
    if_pos hfits, hnode, Option.bind_some, hquery]

/-! ## Texts -/

/-- The numbers that a query is written with are integers of 64 bits. -/
theorem hasWords_toJson {q : Query} (h : q.IsIntegral) : q.toJson.HasWords := by
  have hmember {α : Type} {n : String} {f : α → Json} {x : Option α}
      (hx : ∀ a ∈ x, (f a).HasWords) : ∀ m ∈ member n f x, m.2.HasWords := by
    cases x with
    | none => simp [member]
    | some a => simpa [member] using hx a rfl
  have hints {x : Option Int} (hx : ∀ i ∈ x, IsSigned i) : ∀ i ∈ x, (Json.ofInt i).HasWords :=
    fun i hi => hasWords_ofInt (hx i hi)
  have horder : ∀ order ∈ q.order, (orderToJson order).HasWords := by
    intro order hmem
    rw [orderToJson, hasWords_obj_iff, List.forall_mem_map]
    exact fun e he => hasWords_ofInt (h.order order hmem e he)
  have hoperands := h.operands
  rw [Expr.toJson, hasWords_obj_iff] at hoperands
  rw [toJson, hasWords_obj_iff]
  simp only [List.forall_mem_append]
  exact ⟨⟨⟨⟨⟨⟨⟨hoperands, hmember horder⟩, hmember fun s _ => by simp [HasWords, numbers]⟩,
    hmember (hints h.offset)⟩, hmember (hints h.limit)⟩,
    hmember fun b _ => by simp [HasWords, numbers]⟩, hmember (hints h.skip)⟩,
    hmember (hints h.take)⟩

/-- **The text of a query is parsed to the query.** Take a query whose numbers are integers in the ranges
of their places: with any strings, any filter, and any of its members present, empty or not. If its text
nests no more arrays and objects than a text may, and is within the limits of size and of depth, then it
is parsed, and what it is parsed to is the same query, with the same order of fields in every map.

**Proof sketch.** A printed value is read as its document, and the document of a query is decoded to the
query: what is written in slots of different names is found again. -/
theorem parse_compact {limits : Limits} {q : Query} (h : q.IsIntegral)
    (hnesting : q.toJson.nesting ≤ maxNesting)
    (hsize : q.toJson.compact.utf8ByteSize ≤ limits.maxBytes)
    (hdepth : q.filter.depth ≤ limits.maxDepth) : parse limits q.toJson.compact = .ok q := by
  have hdecode : decodeText decode q.toJson.compact = some q := by
    rw [decodeText, read_compact (hasWords_toJson h), Option.bind_some, decode_ofJson h hnesting]
  rw [parse, if_neg (Nat.not_lt.mpr hsize), hdecode]
  exact if_neg (Nat.not_lt.mpr hdepth)

/-- A query with strings that have to be escaped, with numbers at the ends of their ranges, and with a
map, a list and a filter that are present and empty. -/
def extremeQuery : Query where
  filter := .node
    (fun
      | .eq => some (.ofList [("z\"", .num (.int 0xffffffffffffffff)), ("ä", .str "\\\n\x01"),
          ("a", .num (.int (-0x8000000000000000)))])
      | .member => some (.ofList [("list", [])])
      | .like => some .empty
      | _ => none)
    (some .empty) none (some []) none
  order := some (.ofList [("b", -0x8000000000000000), ("a", 0x7fffffffffffffff)])
  rawCondition := some ""
  offset := none
  limit := some 0
  existsOnly := some false
  skip := none
  take := some (-1)

/-- The text of an extreme query. -/
def extremeText : String :=
  "\x7b\"eq\":\x7b\"z\\\"\":18446744073709551615,\"ä\":\"\\\\\\n\\u0001\"," ++
    "\"a\":-9223372036854775808\x7d,\"like\":\x7b\x7d,\"in\":\x7b\"list\":[]\x7d," ++
    "\"not\":\x7b\x7d,\"and\":[],\"order\":\x7b\"b\":-9223372036854775808," ++
    "\"a\":9223372036854775807\x7d,\"where\":\"\",\"limit\":0,\"exists\":false,\"take\":-1\x7d"

/-- The text of an extreme query is parsed to the query. -/
theorem parse_compact_extremeQuery :
    extremeQuery.toJson.compact = extremeText ∧ parse .default extremeText = .ok extremeQuery := by
  have htext : extremeQuery.toJson.compact = extremeText := by decide +kernel
  have hnumbers : extremeQuery.filter.toJson.numbers =
      [.int 0xffffffffffffffff, .int (-0x8000000000000000)] := by
    rfl
  have hintegral : extremeQuery.IsIntegral := by
    refine ⟨?_, by decide, by decide, by decide, by decide, by decide⟩
    rw [HasWords, hnumbers]
    simp [IsWord]
  have hparse := @parse_compact .default _ hintegral (by decide) (by rw [htext]; decide +kernel)
    (by decide)
  exact ⟨htext, htext ▸ hparse⟩

end Query

end SqlFilter
