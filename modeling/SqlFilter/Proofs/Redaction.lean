import Mathlib.Data.List.Basic
import SqlFilter.Proofs.Emptiness
import SqlFilter.Proofs.Text

set_option relaxedAutoImplicit false
set_option autoImplicit false

/-!
# Redacted filters

The operands of a filter come from a client. To say that something does not depend on them, they are
replaced by others, all at once, and what is compiled then is compared with what was compiled before.

## Design

A predicate holds the operands as JSON, so it cannot be redacted itself. Instead two chains are
compared by their sketches: the links, the templates of the terms and whatever else of the conditions
does not show the replaced operands. A sketch determines what `spliced`, `negated` and `grouped` make
of a chain, and so a tree and its redaction have the same sketch.

## Main definitions

* `Redaction`, `Expr.redact` — a replacement of operands, and a tree with its operands replaced.
* `Redaction.Hides` — what does not show the replaced operands.
* `Expr.shape` — a tree without its operands.

## Main results

* `Expr.sketch_compile_redact` — a tree and its redaction compile to the same sketch.
* `Expr.shape_redact` — a tree and its redaction have the same shape.
* `Query.template_eq_of_shape_eq` — keys and filters of the same shape have the same template.
-/

namespace SqlFilter

/-! ## Replacing values -/

namespace FieldMap

variable {α β : Type}

/-- A map with each of its values replaced. -/
def mapValues (f : α → β) (m : FieldMap α) : FieldMap β :=
  ⟨m.entries.map fun e => (e.1, f e.2), by simpa [Function.comp_def] using m.nodup⟩

/-- Replacing values keeps the fields. -/
@[simp] theorem fields_mapValues (f : α → β) (m : FieldMap α) :
    (m.mapValues f).fields = m.fields := by
  simp [fields, mapValues, Function.comp_def]

/-- Replacing values keeps the number of fields. -/
@[simp] theorem size_mapValues (f : α → β) (m : FieldMap α) : (m.mapValues f).size = m.size := by
  simp [size, mapValues]

/-- Replacing values keeps a map from being empty. -/
@[simp] theorem isEmpty_mapValues (f : α → β) (m : FieldMap α) :
    (m.mapValues f).isEmpty = m.isEmpty := by
  simp [isEmpty, mapValues]

/-- What is found after replacing values is what was found before, replaced. -/
theorem get?_mapValues (f : α → β) (m : FieldMap α) (field : String) :
    (m.mapValues f).get? field = (m.get? field).map f := by
  simp only [get?, mapValues]
  induction m.entries with
  | nil => rfl
  | cons e rest ih =>
    simp only [List.map_cons, lookupEntry]
    split
    · rfl
    · exact ih

/-- A value is replaced before or after it is inserted. -/
theorem mapValues_insert (f : α → β) (m : FieldMap α) (field : String) (value : α) :
    (m.insert field value).mapValues f = (m.mapValues f).insert field (f value) := by
  refine FieldMap.ext ?_
  simp only [mapValues, entries_insert]
  induction m.entries with
  | nil => rfl
  | cons e rest ih =>
    simp only [insertEntry, List.map_cons]
    split
    · rfl
    · rw [List.map_cons, ih]

/-- Values are replaced one time after the other, or once. -/
theorem mapValues_mapValues {γ : Type} (g : β → γ) (f : α → β) (m : FieldMap α) :
    (m.mapValues f).mapValues g = m.mapValues (g ∘ f) := by
  simp [mapValues, Function.comp_def]

/-- Values are replaced before or after they are inserted one after the other. -/
theorem mapValues_insertAll (f : α → β) (m : FieldMap α) (entries : List (String × α)) :
    (m.insertAll entries).mapValues f =
      (m.mapValues f).insertAll (entries.map fun e => (e.1, f e.2)) := by
  induction entries generalizing m with
  | nil => rfl
  | cons e rest ih =>
    have hrest := ih (m.insert e.1 e.2)
    rw [mapValues_insert] at hrest
    exact hrest

end FieldMap

/-- A replacement of operands that leaves null tests as they are. -/
structure Redaction where
  operand : (k : Kind) → k.Operand → k.Operand
  operand_nulls : ∀ expected, operand .nulls expected = expected

namespace Redaction

/-- The redaction that leaves nothing of scalars and patterns, and of lists what is said. -/
def ofMembers (f : List Scalar → List Scalar) : Redaction where
  operand
    | .scalars, _ => .bool false
    | .patterns, _ => ""
    | .members, items => f items
    | .nulls, expected => expected
  operand_nulls _ := rfl

/-- A function of conditions gives the same for an operand and for what it is replaced by. -/
def Hides {β : Type} (r : Redaction) (g : Condition → β) : Prop :=
  ∀ (field : String) (node position : Nat) (o : Operator) (k : Kind) (x : k.Operand),
    g ⟨field, node, position, k.test o (r.operand k x)⟩ = g ⟨field, node, position, k.test o x⟩

/-- The template of a condition shows its null test, but no other operand. -/
theorem hides_template (r : Redaction) : r.Hides Condition.template := by
  intro field node position o k x
  cases k with
  | scalars | patterns | members => rfl
  | nulls => rw [r.operand_nulls]

variable (r : Redaction)

/-- The maps of a node with their operands replaced. -/
def maps (maps : OperatorMaps) : OperatorMaps := fun o =>
  (maps o).map (FieldMap.mapValues (r.operand o.kind))

/-- The map of an operator with its operands replaced. -/
def entry (m : (o : Operator) × FieldMap o.Operand) : (o : Operator) × FieldMap o.Operand :=
  ⟨m.1, m.2.mapValues (r.operand m.1.kind)⟩

/-- The maps that are present stay present. -/
theorem present_maps (maps : OperatorMaps) (operators : List Operator) :
    (r.maps maps).present operators = (maps.present operators).map r.entry := by
  simp [OperatorMaps.present, Redaction.maps, List.map_filterMap, Function.comp_def, entry]

/-- Replacing operands keeps the fields of a node. -/
theorem fields_maps (maps : OperatorMaps) : (r.maps maps).fields = maps.fields := by
  simp [OperatorMaps.fields, present_maps, List.flatMap_map, entry]

end Redaction

/-! ## Redacted trees -/

namespace Expr

mutual

/-- A tree with its operands replaced. -/
def redact (r : Redaction) : Expr → Expr
  | .node maps not nor and or =>
    .node (r.maps maps) (match not with | none => none | some e => some (e.redact r))
      (match nor with | none => none | some e => some (e.redact r))
      (match and with | none => none | some es => some (redactAll r es))
      (match or with | none => none | some es => some (redactAll r es))

/-- Trees with their operands replaced. -/
def redactAll (r : Redaction) : List Expr → List Expr
  | [] => []
  | e :: es => e.redact r :: redactAll r es

end

variable (r : Redaction)

/-- A list of trees is redacted tree by tree. -/
theorem redactAll_eq_map (es : List Expr) : redactAll r es = es.map (redact r) := by
  induction es with
  | nil => rw [redactAll, List.map_nil]
  | cons e es ih => rw [redactAll, List.map_cons, ih]

/-- A node is redacted with all nodes below. -/
theorem redact_node (maps : OperatorMaps) (not nor : Option Expr) (and or : Option (List Expr)) :
    (Expr.node maps not nor and or).redact r =
      .node (r.maps maps) (not.map (redact r)) (nor.map (redact r)) (and.map (List.map (redact r)))
        (or.map (List.map (redact r))) := by
  cases not <;> cases nor <;> cases and <;> cases or <;> simp [redact, redactAll_eq_map]

/-- The items of a redacted list are the redacted items, also where there is no list. -/
private theorem getD_map_redact (es : Option (List Expr)) :
    (es.map (List.map (redact r))).getD [] = (es.getD []).map (redact r) := by
  cases es <;> rfl

/-- The child of a redacted combinator is the redacted child, also where there is none. -/
private theorem toList_map_redact (e : Option Expr) :
    (e.map (redact r)).toList = e.toList.map (redact r) := by
  cases e <;> rfl

/-- Redaction keeps the size of a list of trees, if it keeps that of each tree. -/
private theorem nodesAll_redact_of_forall (es : List Expr)
    (h : ∀ e ∈ es, (e.redact r).nodes = e.nodes) : nodesAll (es.map (redact r)) = nodesAll es := by
  induction es with
  | nil => rfl
  | cons e es ih =>
    rw [List.map_cons, nodesAll, nodesAll, h e (by simp), ih fun e' he' => h e' (by simp [he'])]

/-- Redaction keeps the size of a tree. -/
theorem nodes_redact (e : Expr) : (e.redact r).nodes = e.nodes := by
  induction e using inductionOn with
  | node maps not nor and or hand hnot hnor hor =>
    rw [redact_node, nodes_node, nodes_node]
    simp only [getD_map_redact, toList_map_redact, nodesAll_redact_of_forall r _ hand,
      nodesAll_redact_of_forall r _ hnot, nodesAll_redact_of_forall r _ hnor,
      nodesAll_redact_of_forall r _ hor]

/-- Redaction keeps the size of a list of trees. -/
theorem nodesAll_redact (es : List Expr) : nodesAll (es.map (redact r)) = nodesAll es :=
  nodesAll_redact_of_forall r es fun e _ => e.nodes_redact r

/-- Redaction keeps the fields of a list of trees, if it keeps those of each tree. -/
private theorem fieldsAll_redact_of_forall (es : List Expr)
    (h : ∀ e ∈ es, (e.redact r).fields = e.fields) :
    fieldsAll (es.map (redact r)) = fieldsAll es := by
  induction es with
  | nil => rfl
  | cons e es ih =>
    rw [List.map_cons, fieldsAll, fieldsAll, h e (by simp), ih fun e' he' => h e' (by simp [he'])]

/-- **Redaction keeps the fields of a tree.** -/
theorem fields_redact (e : Expr) : (e.redact r).fields = e.fields := by
  induction e using inductionOn with
  | node maps not nor and or hand hnot hnor hor =>
    rw [redact_node, fields_node, fields_node]
    simp only [r.fields_maps, getD_map_redact, toList_map_redact,
      fieldsAll_redact_of_forall r _ hand, fieldsAll_redact_of_forall r _ hnot,
      fieldsAll_redact_of_forall r _ hnor, fieldsAll_redact_of_forall r _ hor]

/-- Redaction keeps a tree an alternative. -/
theorem standsAsAlternative_redact (e : Expr) :
    (e.redact r).standsAsAlternative = e.standsAsAlternative := by
  obtain ⟨maps, not, nor, and, or⟩ := e
  have hall (es : List Expr) : fieldsAll (es.map (redact r)) = fieldsAll es :=
    fieldsAll_redact_of_forall r es fun e _ => e.fields_redact r
  rw [redact_node, standsAsAlternative, standsAsAlternative]
  simp only [r.fields_maps, getD_map_redact, toList_map_redact, hall, Option.isNone_map]

end Expr

/-! ## Replacing operands twice -/

section

variable {r r' : Redaction} (h : ∀ k x, r'.operand k (r.operand k x) = r'.operand k x)

include h in
/-- Only the second redaction is seen in the maps of a node. -/
private theorem maps_maps (maps : OperatorMaps) : r'.maps (r.maps maps) = r'.maps maps := by
  funext o
  have hcomp : r'.operand o.kind ∘ r.operand o.kind = r'.operand o.kind := funext (h o.kind)
  rw [Redaction.maps, Redaction.maps, Redaction.maps, Option.map_map]
  refine Option.map_congr fun m _ => ?_
  rw [Function.comp_apply, FieldMap.mapValues_mapValues, hcomp]

include h in
/-- **Only the second redaction is seen** if it treats operands that were replaced before in the same
way as others. -/
theorem Expr.redact_redact (e : Expr) : (e.redact r).redact r' = e.redact r' := by
  induction e using inductionOn with
  | node maps not nor and or hand hnot hnor hor =>
    have hchild (e : Option Expr) (he : ∀ e' ∈ e.toList, (e'.redact r).redact r' = e'.redact r') :
        (e.map (redact r)).map (redact r') = e.map (redact r') := by
      cases e with
      | none => rfl
      | some e => simpa using he
    have hitems (es : Option (List Expr))
        (hes : ∀ e ∈ es.getD [], (e.redact r).redact r' = e.redact r') :
        (es.map (List.map (redact r))).map (List.map (redact r')) =
          es.map (List.map (redact r')) := by
      cases es with
      | none => rfl
      | some es => simpa using hes
    rw [redact_node, redact_node, redact_node, maps_maps h, hchild not hnot, hchild nor hnor,
      hitems and hand, hitems or hor]

end

/-! ## Sketches -/

section

variable {β : Type} (g : Condition → β)

/-- What is left of a term if its conditions are seen through their templates and a function. -/
def Term.sketch (t : Term) : Template × List β := (t.template, t.allConditions.map g)

namespace Chain

/-- What is left of a chain if its conditions are seen through their templates and a function. -/
def sketch (chain : Chain) : List (Conjunction × Template × List β) :=
  chain.map fun link => (link.1, link.2.sketch g)

/-- The sketch of two chains in a row. -/
@[simp] theorem sketch_append (a b : Chain) :
    Chain.sketch g (a ++ b) = Chain.sketch g a ++ Chain.sketch g b := List.map_append

/-- The template of what follows a chain, read off a sketch. -/
private theorem linkedTemplate_eq_flatMap (chain : Chain) : linkedTemplate chain =
    (chain.sketch g).flatMap fun link => .link link.1 :: link.2.1 := by
  induction chain with
  | nil => rw [linkedTemplate]; rfl
  | cons link chain ih =>
    rw [linkedTemplate_cons, template_cons, ih]
    rfl

/-- The conditions of a chain, read off a sketch. -/
private theorem map_conditions_eq_flatMap (chain : Chain) :
    chain.conditions.map g = (chain.sketch g).flatMap fun link => link.2.2 := by
  induction chain with
  | nil => rfl
  | cons link chain ih =>
    rw [conditions_cons, List.map_append, ih]
    rfl

variable {g} {a b : Chain}

/-- **A sketch tells the template of a chain.** -/
theorem template_eq_of_sketch_eq (h : a.sketch g = b.sketch g) : a.template = b.template := by
  have htail (chain : Chain) : chain.template = (linkedTemplate chain).tail := by
    cases chain with
    | nil => rw [linkedTemplate]; rfl
    | cons link chain => rw [linkedTemplate_cons, List.tail_cons]
  rw [htail, htail, linkedTemplate_eq_flatMap g, linkedTemplate_eq_flatMap g, h]

/-- A sketch tells what can be seen of the conditions of a chain. -/
theorem map_conditions_eq_of_sketch_eq (h : a.sketch g = b.sketch g) :
    a.conditions.map g = b.conditions.map g := by
  rw [map_conditions_eq_flatMap, map_conditions_eq_flatMap, h]

/-- A sketch tells the number of terms. -/
theorem length_eq_of_sketch_eq (h : a.sketch g = b.sketch g) : a.length = b.length := by
  simpa [sketch] using congrArg List.length h

/-- A sketch tells whether there is any term. -/
theorem isEmpty_eq_of_sketch_eq (h : a.sketch g = b.sketch g) : a.isEmpty = b.isEmpty := by
  simpa [sketch] using congrArg List.isEmpty h

/-- A sketch tells what a chain is when it is linked to another one. -/
theorem sketch_linkedBy (c : Conjunction) (h : a.sketch g = b.sketch g) :
    (a.linkedBy c).sketch g = (b.linkedBy c).sketch g := by
  cases a <;> cases b <;> simp_all [sketch, linkedBy]

/-- A sketch tells what a chain is when it is spliced. -/
theorem sketch_spliced (c : Conjunction) (h : a.sketch g = b.sketch g) :
    Chain.sketch g (a.spliced c).flatten = Chain.sketch g (b.spliced c).flatten := by
  rw [flatten_spliced, flatten_spliced]
  exact sketch_linkedBy c h

/-- A sketch tells what a chain is when it is negated. -/
theorem sketch_negated (c : Conjunction) (h : a.sketch g = b.sketch g) :
    Chain.sketch g (a.negated c).flatten = Chain.sketch g (b.negated c).flatten := by
  have htemplate : chainTemplate a = chainTemplate b := template_eq_of_sketch_eq h
  have hterm : (Term.not a).sketch g = (Term.not b).sketch g := by
    rw [Term.sketch, Term.sketch, Term.allConditions_not, Term.allConditions_not,
      map_conditions_eq_of_sketch_eq h, Term.template, Term.template, length_eq_of_sketch_eq h,
      htemplate]
  unfold negated
  rw [isEmpty_eq_of_sketch_eq h]
  split
  · rfl
  · simp [sketch, hterm]

/-- A sketch tells what a chain is when it is grouped. -/
theorem sketch_grouped (c : Conjunction) (h : a.sketch g = b.sketch g) :
    Chain.sketch g (a.grouped c).flatten = Chain.sketch g (b.grouped c).flatten := by
  have hterm : (Term.group a).sketch g = (Term.group b).sketch g := by
    rw [Term.sketch, Term.sketch, Term.allConditions_group, Term.allConditions_group,
      map_conditions_eq_of_sketch_eq h, Term.template_group, Term.template_group,
      template_eq_of_sketch_eq h]
  unfold grouped
  rw [isEmpty_eq_of_sketch_eq h]
  split
  · rfl
  · simp [sketch, hterm]

end Chain

end

/-! ## Compiling redacted trees -/

section

variable {β : Type} {r : Redaction} {g : Condition → β}

/-- What hides the replaced operands cannot tell the conditions of a map from those of the redacted
map. -/
theorem Redaction.Hides.map_conditions (h : r.Hides g) (o : Operator) {k : Kind}
    (m : FieldMap k.Operand) (node position : Nat) :
    ((m.mapValues (r.operand k)).conditions o node position).map g =
      (m.conditions o node position).map g := by
  simp only [FieldMap.conditions, FieldMap.mapValues, List.zipIdx_map, List.map_map]
  exact List.map_congr_left fun e _ => h e.1.1 node e.2 o k e.1.2

/-- Redacted maps have parts of the same sketch. -/
private theorem sketch_partsFrom (h : r.Hides g) (c : Conjunction) (node : Nat)
    (maps : List ((o : Operator) × FieldMap o.Operand)) (position : Nat) :
    Chain.sketch g (OperatorMaps.partsFrom c node position (maps.map r.entry)).flatten =
      Chain.sketch g (OperatorMaps.partsFrom c node position maps).flatten := by
  induction maps generalizing position with
  | nil => rfl
  | cons m rest ih =>
    obtain ⟨o, m⟩ := m
    rw [List.map_cons, Redaction.entry, OperatorMaps.partsFrom, OperatorMaps.partsFrom,
      FieldMap.isEmpty_mapValues, FieldMap.size_mapValues]
    split
    · exact ih position
    · have hterm : (Term.conditions c
          ((m.mapValues (r.operand o.kind)).conditions o node position)).sketch g =
          (Term.conditions c (m.conditions o node position)).sketch g := by
        rw [Term.sketch, Term.sketch, Term.template, Term.template, conditionsTemplate,
          conditionsTemplate, r.hides_template.map_conditions, Term.allConditions_conditions,
          Term.allConditions_conditions, h.map_conditions]
      rw [List.flatten_cons, List.flatten_cons, Chain.sketch_append, Chain.sketch_append, ih]
      simp [Chain.sketch, hterm]

/-- The parts of a node and of its redaction have the same sketch. -/
theorem Redaction.Hides.sketch_parts (h : r.Hides g) (maps : OperatorMaps) (c : Conjunction)
    (node : Nat) : Chain.sketch g ((r.maps maps).parts c node).flatten =
      Chain.sketch g (maps.parts c node).flatten := by
  rw [OperatorMaps.parts, OperatorMaps.parts, r.present_maps]
  exact sketch_partsFrom h c node _ 0

namespace Expr

/-- Redacted trees compile to chains of the same sketch, if each of them does. -/
private theorem sketch_compileAll_of_forall (es : List Expr) (c : Conjunction)
    (h : ∀ e ∈ es, ∀ c before, ((e.redact r).compile c before).chain.sketch g =
      (e.compile c before).chain.sketch g) (before : Nat) :
    Chain.sketch g (compileAll (es.map (redact r)) c before) =
      Chain.sketch g (compileAll es c before) := by
  induction es generalizing before with
  | nil => rfl
  | cons e es ih =>
    rw [List.map_cons, compileAll_cons, compileAll_cons, Chain.sketch_append, Chain.sketch_append,
      h e (by simp), nodes_redact, ih fun e' he' => h e' (by simp [he'])]

/-- **A tree and its redaction compile to the same sketch.**

**Proof sketch.** Induction on the tree. The parts of the root look the same, the nodes below are
numbered alike since redaction keeps the size of a tree, and every combinator is told by the sketch of
the chain below it. -/
theorem sketch_compile_redact (hg : r.Hides g) (e : Expr) : ∀ (c : Conjunction) (before : Nat),
    ((e.redact r).compile c before).chain.sketch g = (e.compile c before).chain.sketch g := by
  induction e using inductionOn with
  | node maps not nor and or hand hnot hnor hor =>
    intro c before
    have hands := Chain.sketch_spliced c (sketch_compileAll_of_forall _ .and hand (before + 1))
    have hnots := Chain.sketch_negated c
      (sketch_compileAll_of_forall _ .and hnot (beforeNot and before))
    have hnors := Chain.sketch_negated c
      (sketch_compileAll_of_forall _ .or hnor (beforeNor not and before))
    have hors := Chain.sketch_grouped c
      (sketch_compileAll_of_forall _ .or hor (beforeOr not nor and before))
    rw [redact_node, compile_node, compile_node, Fragment.chain, Fragment.chain, strictParts,
      strictParts]
    simp only [beforeNot, beforeNor, beforeOr, getD_map_redact, toList_map_redact, nodesAll_redact]
      at hnots hnors hors ⊢
    simp only [List.flatten_append, Chain.sketch_append, hg.sketch_parts, hands, hnots, hnors, hors]

end Expr

end

/-! ## Shapes -/

namespace Expr

/-- **The shape of a tree**: its nodes, the fields of their maps in order, and the null tests. Nothing
is left of scalars and patterns, and lists are empty. -/
def shape (e : Expr) : Expr := e.redact (.ofMembers fun _ => [])

/-- **Replacing operands keeps the shape**, so trees of one shape may have any operands. -/
theorem shape_redact (r : Redaction) (e : Expr) : (e.redact r).shape = e.shape := by
  refine redact_redact (fun k x => ?_) e
  cases k with
  | scalars | patterns | members => rfl
  | nulls => rw [r.operand_nulls]

/-- Trees of the same shape have the same template. -/
theorem template_eq_of_shape_eq {e e' : Expr} (h : e.shape = e'.shape) (c : Conjunction)
    (before : Nat) :
    (e.compile c before).chain.template = (e'.compile c before).chain.template := by
  have hsame (e : Expr) : (e.shape.compile c before).chain.template =
      (e.compile c before).chain.template :=
    Chain.template_eq_of_sketch_eq (sketch_compile_redact (Redaction.hides_template _) e c before)
  rw [← hsame e, ← hsame e', h]

/-- Trees of the same shape have the same parameters. -/
theorem parameters_eq_of_shape_eq {e e' : Expr} (h : e.shape = e'.shape) :
    e.parameters = e'.parameters := by
  have hparameters (e : Expr) : e.parameters = (e.compile .and 0).chain.template.parameters := by
    rw [Chain.parameters_template, Chain.bindings, conditions_compile]
    rfl
  rw [hparameters, hparameters, template_eq_of_shape_eq h]

/-- Trees of the same shape are both alternatives or both not. -/
theorem standsAsAlternative_eq_of_shape_eq {e e' : Expr} (h : e.shape = e'.shape) :
    e.standsAsAlternative = e'.standsAsAlternative := by
  rw [← e.standsAsAlternative_redact (.ofMembers fun _ => []),
    ← e'.standsAsAlternative_redact (.ofMembers fun _ => []), ← shape, ← shape, h]

end Expr

/-- **Keys of the same names and filters of the same shape have the same template.** -/
theorem Query.template_eq_of_shape_eq {keys keys' : Keys} {q q' : Query}
    (hkeys : keys.fields = keys'.fields) (hfilter : q.filter.shape = q'.filter.shape) :
    q.template keys = q'.template keys' := by
  rw [template, template, joinTemplates, joinTemplates, Keys.template, Keys.template, hkeys,
    Expr.template_eq_of_shape_eq hfilter, Expr.isAlternative_compile, Expr.isAlternative_compile,
    Expr.standsAsAlternative_eq_of_shape_eq hfilter]

end SqlFilter
