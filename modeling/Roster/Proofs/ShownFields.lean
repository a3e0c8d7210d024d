import Mathlib.Data.List.Induction
import Roster.Proofs.CheckedNames
import Roster.Proofs.Sample

/-!
Fields that are shown.

When a configuration is built only the list of the fields of a schema is checked; when a resource is rendered the
schema itself is walked. What is rendered depends on the listed fields alone, and it is the first of them without a
value that rendering fails at. The list has the references in the definition of the schema, each as often as it
stands there and in the order in which they stand.
-/

set_option autoImplicit false

namespace Roster

/-! ## Outcomes that fail at a name -/

section FailsAt

variable {ε α β : Type} {x : Except ε α} {m n : Option ε}

/-- A computation fails with an error exactly if it is the one that is expected. -/
def FailsAt (x : Except ε α) (expected : Option ε) : Prop :=
  ∀ e, x = .error e ↔ expected = some e

namespace FailsAt

theorem ok (a : α) : FailsAt (.ok a : Except ε α) none :=
  fun _ => iff_of_false nofun nofun

theorem map (h : FailsAt x m) (f : α → β) : FailsAt (x.map f) m := by
  intro e
  rw [← h e]
  cases x with
  | ok a => exact iff_of_false nofun nofun
  | error e' =>
    change Except.error e' = Except.error e ↔ _
    rw [Except.error.injEq, Except.error.injEq]

/-- Of two computations one after the other the first one that is expected to fail decides. -/
theorem bind {f : α → Except ε β} (h : FailsAt x m) (hf : ∀ a, FailsAt (f a) n) : FailsAt (x >>= f) (m.or n) := by
  intro e
  cases x with
  | ok a =>
    have hm : m = none := by
      refine Option.eq_none_iff_forall_ne_some.2 fun e' he' => ?_
      cases (h e').2 he'
    rw [hm, Option.none_or]
    exact hf a e
  | error e' =>
    have hm : m = some e' := (h e').1 rfl
    rw [hm, Option.some_or, Option.some_inj]
    exact ⟨Except.error.inj, fun he => he ▸ rfl⟩

end FailsAt

end FailsAt

namespace Schema

variable {get get' : String → Option Json} {schema : Schema}

/-- What holds of a schema whenever it holds of all schemas directly in it holds of every schema. -/
@[elab_as_elim]
theorem inductionOnParts {P : Schema → Prop} (constant : ∀ value, P (.constant value)) (field : ∀ name, P (.field name))
    (object : ∀ children : List (String × Schema), (∀ child ∈ children, P child.2) → P (.object children))
    (array : ∀ items, (∀ item ∈ items, P item) → P (.array items)) (schema : Schema) : P schema :=
  @Schema.rec P (fun children => ∀ child ∈ children, P child.2) (fun items => ∀ item ∈ items, P item)
    (fun child => P child.2) constant field object array (fun _ h => absurd h List.not_mem_nil)
    (fun _ _ hfirst hrest => List.forall_mem_cons.2 ⟨hfirst, hrest⟩) (fun _ h => absurd h List.not_mem_nil)
    (fun _ _ hfirst hrest => List.forall_mem_cons.2 ⟨hfirst, hrest⟩) (fun _ _ h => h) schema

/-! ## Lists of fields -/

theorem fieldsOfChildren_eq_flatMap (children : List (String × Schema)) :
    fieldsOfChildren children = children.flatMap fun child => child.2.fields := by
  induction children with
  | nil => rfl
  | cons child rest ih => rw [fieldsOfChildren, ih, List.flatMap_cons]

theorem fieldsOfItems_eq_flatMap (items : List Schema) : fieldsOfItems items = items.flatMap fields := by
  induction items with
  | nil => rfl
  | cons item rest ih => rw [fieldsOfItems, ih, List.flatMap_cons]

theorem readChildren_eq_mapM (children : List (String × Schema)) :
    readChildren get children = children.mapM fun child => (child.2.read get).map fun value => (child.1, value) := by
  induction children with
  | nil => rfl
  | cons child rest ih =>
    rw [readChildren, ih, List.mapM_cons]
    cases child.2.read get <;> rfl

theorem readItems_eq_mapM (items : List Schema) : readItems get items = items.mapM (read get) := by
  induction items with
  | nil => rfl
  | cons item rest ih => rw [readItems, ih, List.mapM_cons]

/-! ## What is read depends on the listed fields -/

theorem read_congr (h : ∀ name ∈ schema.fields, get name = get' name) : schema.read get = schema.read get' := by
  induction schema using inductionOnParts with
  | constant value => rfl
  | field name => rw [read, read, h name (List.mem_singleton_self name)]
  | object children ih =>
    rw [fields, fieldsOfChildren_eq_flatMap] at h
    rw [read, read, readChildren_eq_mapM, readChildren_eq_mapM]
    congr 1
    refine mapM_congr fun child hchild => ?_
    rw [ih child hchild fun name hname => h name (List.mem_flatMap.2 ⟨child, hchild, hname⟩)]
  | array items ih =>
    rw [fields, fieldsOfItems_eq_flatMap] at h
    rw [read, read, readItems_eq_mapM, readItems_eq_mapM]
    congr 1
    exact mapM_congr fun item hitem => ih item hitem fun name hname => h name (List.mem_flatMap.2 ⟨item, hitem, hname⟩)

/-! ## Reading fails at the first field without a value -/

/-- The first name in a list that has no value. -/
def firstMissing? (get : String → Option Json) (names : List String) : Option String :=
  names.find? fun name => (get name).isNone

/-- Walks one after the other fail at the first name without a value in what is listed for them. -/
private theorem failsAt_mapM {α β : Type} {f : α → Except String β} {listed : α → List String} {parts : List α}
    (h : ∀ part ∈ parts, FailsAt (f part) (firstMissing? get (listed part))) :
    FailsAt (parts.mapM f) (firstMissing? get (parts.flatMap listed)) := by
  induction parts with
  | nil => exact .ok []
  | cons part rest ih =>
    rw [List.forall_mem_cons] at h
    rw [List.mapM_cons, List.flatMap_cons, firstMissing?, List.find?_append]
    refine h.1.bind fun value => ?_
    rw [← Option.or_none (o := List.find? _ _)]
    exact (ih h.2).bind fun values => .ok (value :: values)

theorem failsAt_read (schema : Schema) : FailsAt (schema.read get) (firstMissing? get schema.fields) := by
  induction schema using inductionOnParts with
  | constant value => exact .ok value
  | field name =>
    intro e
    rw [read, fields, firstMissing?, List.find?_singleton]
    cases get name with
    | none => simp
    | some value => simp
  | object children ih =>
    rw [read, fields, readChildren_eq_mapM, fieldsOfChildren_eq_flatMap]
    exact (failsAt_mapM fun child hchild => (ih child hchild).map _).map _
  | array items ih =>
    rw [read, fields, readItems_eq_mapM, fieldsOfItems_eq_flatMap]
    exact (failsAt_mapM ih).map _

theorem exists_read_eq_error_iff :
    (∃ name, schema.read get = .error name) ↔ ∃ name ∈ schema.fields, get name = none := by
  rw [exists_congr (failsAt_read schema), ← Option.isSome_iff_exists, firstMissing?, List.find?_isSome]
  simp only [Option.isNone_iff_eq_none]

end Schema

/-! ## References in order -/

section ListsReferences

variable {α : Type} {reference? : α → List Nat → Option String} {names : α → List String} {parts : List α} {part : α}

/-- Names are all that are referred to, in the order of their positions: at each level, what is in one part comes
before what is in a later one. -/
def ListsReferences (reference? : List Nat → Option String) (names : List String) : Prop :=
  ∃ positions : List (List Nat), positions.Pairwise (· < ·) ∧
    (∀ position, position ∈ positions ↔ (reference? position).isSome = true) ∧ names = positions.filterMap reference?

/-- What is referred to at a position in one of a number of parts. -/
def inParts (reference? : α → List Nat → Option String) (parts : List α) : List Nat → Option String
  | [] => none
  | i :: rest => parts[i]?.bind fun part => reference? part rest

private theorem lt_of_isSome_inParts {position : List Nat} (h : (inParts reference? parts position).isSome = true) :
    ∃ i rest, position = i :: rest ∧ i < parts.length := by
  cases position with
  | nil => cases h
  | cons i rest =>
    refine ⟨i, rest, rfl, ?_⟩
    by_contra hi
    rw [inParts, List.getElem?_eq_none (Nat.le_of_not_lt hi)] at h
    cases h

private theorem inParts_append_left {i : Nat} (hi : i < parts.length) (rest : List Nat) :
    inParts reference? (parts ++ [part]) (i :: rest) = inParts reference? parts (i :: rest) := by
  rw [inParts, inParts, List.getElem?_append_left hi]

private theorem inParts_append_length (rest : List Nat) :
    inParts reference? (parts ++ [part]) (parts.length :: rest) = reference? part rest := by
  rw [inParts, List.getElem?_concat_length]
  rfl

/-- What is referred to in parts is what is referred to in the first, then in the second, and so on. -/
theorem listsReferences_flatMap (h : ∀ part ∈ parts, ListsReferences (reference? part) (names part)) :
    ListsReferences (inParts reference? parts) (parts.flatMap names) := by
  -- From the end, so that one more part leaves the numbers of those before it as they are.
  induction parts using List.reverseRecOn with
  | nil =>
    refine ⟨[], .nil, fun position => iff_of_false List.not_mem_nil fun hsome => ?_, rfl⟩
    obtain ⟨i, _, _, hi⟩ := lt_of_isSome_inParts hsome
    exact Nat.not_lt_zero i hi
  | append_singleton parts part ih =>
    rw [List.forall_mem_append, List.forall_mem_singleton] at h
    obtain ⟨before, hsorted, hbefore, hnames⟩ := ih h.1
    obtain ⟨inside, hsorted', hinside, hnames'⟩ := h.2
    have hlt : ∀ position ∈ before, ∃ i rest, position = i :: rest ∧ i < parts.length :=
      fun position hposition => lt_of_isSome_inParts ((hbefore position).1 hposition)
    refine ⟨before ++ inside.map (parts.length :: ·), ?_, fun position => ?_, ?_⟩
    · refine List.pairwise_append.2 ⟨hsorted, ?_, ?_⟩
      · exact hsorted'.map _ fun _ _ => List.cons_lt_cons_self.2
      · intro p hp q hq
        obtain ⟨i, rest, rfl, hi⟩ := hlt p hp
        obtain ⟨rest', -, rfl⟩ := List.mem_map.1 hq
        exact List.cons_lt_cons_iff.2 (.inl hi)
    · rw [List.mem_append, List.mem_map]
      constructor
      · rintro (hp | ⟨rest, hrest, rfl⟩)
        · obtain ⟨i, rest, rfl, hi⟩ := hlt position hp
          rw [inParts_append_left hi]
          exact (hbefore _).1 hp
        · rw [inParts_append_length]
          exact (hinside rest).1 hrest
      · intro hsome
        obtain ⟨i, rest, rfl, hi⟩ := lt_of_isSome_inParts hsome
        rw [List.length_append, List.length_singleton, Nat.lt_succ_iff_lt_or_eq] at hi
        rcases hi with hi | rfl
        · rw [inParts_append_left hi] at hsome
          exact .inl ((hbefore _).2 hsome)
        · rw [inParts_append_length] at hsome
          exact .inr ⟨rest, (hinside rest).2 hsome, rfl⟩
    · rw [List.flatMap_append, List.flatMap_singleton, hnames, hnames', List.filterMap_append, List.filterMap_map]
      congr 1
      · refine List.filterMap_congr fun position hp => ?_
        obtain ⟨i, rest, rfl, hi⟩ := hlt position hp
        exact (inParts_append_left hi rest).symm
      · exact List.filterMap_congr fun rest _ => (inParts_append_length rest).symm

end ListsReferences

namespace Schema

/-- The name that a schema refers to at a position: the number of the part to go into, level by level. -/
def reference? : Schema → List Nat → Option String
  | .field name, [] => some name
  | .object children, i :: rest => children[i]?.bind fun child => child.2.reference? rest
  | .array items, i :: rest => items[i]?.bind fun item => item.reference? rest
  | _, _ => none

theorem reference?_object (children : List (String × Schema)) :
    (Schema.object children).reference? = inParts (fun child => child.2.reference?) children := by
  funext position
  cases position <;> rfl

theorem reference?_array (items : List Schema) : (Schema.array items).reference? = inParts reference? items := by
  funext position
  cases position <;> rfl

/-- The fields of a schema are its references in their order. -/
theorem listsReferences (schema : Schema) : ListsReferences schema.reference? schema.fields := by
  induction schema using inductionOnParts with
  | constant value =>
    refine ⟨[], .nil, fun position => iff_of_false List.not_mem_nil ?_, rfl⟩
    cases position <;> exact nofun
  | field name =>
    refine ⟨[[]], List.pairwise_singleton _ _, fun position => ?_, rfl⟩
    cases position with
    | nil => exact iff_of_true (List.mem_singleton_self _) rfl
    | cons i rest => exact iff_of_false (by simp) nofun
  | object children ih =>
    rw [reference?_object, fields, fieldsOfChildren_eq_flatMap]
    exact listsReferences_flatMap ih
  | array items ih =>
    rw [reference?_array, fields, fieldsOfItems_eq_flatMap]
    exact listsReferences_flatMap ih

/-! ## Compiled definitions -/

/-- The name that a definition refers to at a position; a finished tree in it is gone into as its other parts are. -/
def Definition.reference? : Definition → List Nat → Option String
  | .tree schema, position => schema.reference? position
  | .object children, i :: rest => children[i]?.bind fun child => child.2.reference? rest
  | .array items, i :: rest => items[i]?.bind fun item => item.reference? rest
  | _, _ => none

theorem compileChildren_eq_map (children : List (String × Definition)) :
    compileChildren children = children.map fun child => (child.1, compile child.2) := by
  induction children with
  | nil => rfl
  | cons child rest ih => rw [compileChildren, ih, List.map_cons]

theorem compileItems_eq_map (items : List Definition) : compileItems items = items.map compile := by
  induction items with
  | nil => rfl
  | cons item rest ih => rw [compileItems, ih, List.map_cons]

/-- Compiling keeps the references where they are. -/
theorem reference?_compile (d : Definition) (position : List Nat) :
    (compile d).reference? position = d.reference? position := by
  induction position generalizing d with
  | nil => cases d <;> rfl
  | cons i rest ih =>
    cases d with
    | tree schema => rfl
    | value value => rfl
    | object children =>
      rw [compile, compileChildren_eq_map, reference?, Definition.reference?, List.getElem?_map, Option.bind_map]
      exact Option.bind_congr fun child _ => ih child.2
    | array items =>
      rw [compile, compileItems_eq_map, reference?, Definition.reference?, List.getElem?_map, Option.bind_map]
      exact Option.bind_congr fun item _ => ih item

theorem compileChildren_eq_zip (children : List (String × Definition)) :
    compileChildren children = (children.map Prod.fst).zip ((children.map Prod.snd).map compile) := by
  induction children with
  | nil => rfl
  | cons child rest ih =>
    rw [compileChildren, ih]
    rfl

/-- A definition in which some parts have been replaced by the trees that they are compiled to. -/
inductive Finished : Definition → Definition → Prop
  | compiled (d : Definition) : Finished d (.tree (compile d))
  | same (d : Definition) : Finished d d
  | object {children children' : List (String × Definition)} : children.map Prod.fst = children'.map Prod.fst →
      List.Forall₂ Finished (children.map Prod.snd) (children'.map Prod.snd) →
      Finished (.object children) (.object children')
  | array {items items' : List Definition} :
      List.Forall₂ Finished items items' → Finished (.array items) (.array items')

/-- Parts may be compiled before the whole is. -/
theorem compile_of_finished {d d' : Definition} (h : Finished d d') : compile d' = compile d := by
  -- The lists of parts are compiled along with the definitions that they are in.
  refine @Finished.rec (fun d d' _ => compile d' = compile d) (fun ds ds' _ => ds'.map compile = ds.map compile)
    ?compiled ?same ?object ?array ?nil ?cons d d' h
  case compiled => exact fun d => rfl
  case same => exact fun d => rfl
  case object =>
    intro children children' hkeys _ hvalues
    rw [compile, compile, compileChildren_eq_zip, compileChildren_eq_zip, hkeys, hvalues]
  case array =>
    intro items items' _ hitems
    rw [compile, compile, compileItems_eq_map, compileItems_eq_map, hitems]
  case nil => rfl
  case cons =>
    intro d d' ds ds' _ _ hd hrest
    rw [List.map_cons, List.map_cons, hd, hrest]

end Schema

/-! ## Rendered rows -/

namespace Row

variable {k : Kind} {attached attached' : List (String × Json)} {schema : Schema}

/-- The refusal to render a row by a schema that refers to a field without a value. -/
def unreadable (k : Kind) (name : String) : Failure := .refused (.configuration (.unreadable k name))

theorem render_eq_mapError (r : Row k) (hreader : attached.lookup "read_field" = none) :
    r.render attached schema = (schema.read (r.shown? attached)).mapError (unreadable k) := by
  rw [render, hreader, Option.isSome_none, Bool.and_false, if_neg Bool.false_ne_true]
  cases schema.read (r.shown? attached) <;> rfl

theorem render_congr (r r' : Row k) (hreader : attached.lookup "read_field" = none)
    (hreader' : attached'.lookup "read_field" = none)
    (h : ∀ name ∈ schema.fields, r.shown? attached name = r'.shown? attached' name) :
    r.render attached schema = r'.render attached' schema := by
  rw [r.render_eq_mapError hreader, r'.render_eq_mapError hreader', Schema.read_congr h]

theorem exists_render_eq_unreadable_iff (r : Row k) (hreader : attached.lookup "read_field" = none) :
    (∃ name, r.render attached schema = .error (unreadable k name)) ↔
      ∃ name ∈ schema.fields, r.shown? attached name = none := by
  rw [← Schema.exists_read_eq_error_iff, r.render_eq_mapError hreader]
  refine exists_congr fun name => ?_
  cases schema.read (r.shown? attached) with
  | ok value => exact iff_of_false nofun nofun
  | error name' =>
    change Except.error (unreadable k name') = Except.error (unreadable k name) ↔ _
    simp [unreadable]

theorem exists_render (r : Row k) (h : ∀ name ∈ schema.fields, Config.isKnown k false name = true) :
    ∃ value, r.render [] schema = .ok value := by
  obtain ⟨value, hvalue⟩ := schema.exists_read fun name hname => r.isSome_shown? [] (h name hname)
  exact ⟨value, by rw [r.render_eq_mapError rfl, hvalue]; rfl⟩

end Row

namespace Schema

/-- Two resources with the same values in the listed fields of a schema are read alike by it, and if they are rows
they are rendered alike. Reading fails at the first listed field without a value, and only if there is one; what has
been checked when a configuration is built can be rendered. A definition may be compiled in parts and again, and its
references, in order, are the listed fields of the schema. -/
theorem listed_fields_decide_reading :
    (∀ (schema : Schema) (get get' : String → Option Json), (∀ name ∈ schema.fields, get name = get' name) →
      schema.read get = schema.read get') ∧
    (∀ (schema : Schema) (get : String → Option Json),
      (∀ name, schema.read get = .error name ↔ schema.fields.find? (fun name => (get name).isNone) = some name) ∧
      ((∃ name, schema.read get = .error name) ↔ ∃ name ∈ schema.fields, get name = none)) ∧
    (∀ (schema : Schema) (k : Kind) (r r' : Row k) (attached attached' : List (String × Json)),
      attached.lookup "read_field" = none → attached'.lookup "read_field" = none →
      (∀ name ∈ schema.fields, r.shown? attached name = r'.shown? attached' name) →
      r.render attached schema = r'.render attached' schema) ∧
    (∀ (schema : Schema) (k : Kind) (r : Row k) (attached : List (String × Json)),
      attached.lookup "read_field" = none →
      ((∃ name, r.render attached schema = .error (.refused (.configuration (.unreadable k name)))) ↔
        ∃ name ∈ schema.fields, r.shown? attached name = none)) ∧
    (∀ (s : Settings) (c : Config), Config.build s = .ok c →
      (∀ (k : Kind) (r : Row k), ∃ value, r.render [] (c.resource k).schema = .ok value) ∧
      ∀ u : Row .user, ∃ value, u.render [] c.memberSchema = .ok value) ∧
    ∀ d : Definition, compile (.tree (compile d)) = compile d ∧
      (∀ d', Finished d d' → compile d' = compile d) ∧ ListsReferences d.reference? (compile d).fields := by
  refine ⟨fun schema get get' => read_congr, fun schema get => ⟨failsAt_read schema, exists_read_eq_error_iff⟩,
    fun schema k r r' attached attached' hreader hreader' => r.render_congr r' hreader hreader',
    fun schema k r attached => r.exists_render_eq_unreadable_iff, fun s c hb => ?_, fun d => ?_⟩
  · have hchecked := Config.isChecked_of_build hb
    refine ⟨fun k r => r.exists_render (hchecked.resource k).schema, fun u => u.exists_render fun name hname => ?_⟩
    rw [Config.isKnown, Bool.or_eq_true]
    exact .inl (hchecked.memberSchema name hname)
  · refine ⟨rfl, fun d' => compile_of_finished, ?_⟩
    have hlists := listsReferences (compile d)
    rwa [funext (reference?_compile d)] at hlists

/-- A definition with a reference that stands in it twice. -/
private def paired : Definition :=
  .object [
    ("a", .array [.tree (.field "email"), .value (.int 1)]),
    ("b", .object [("c", .tree (.field "uuid")), ("d", .tree (.field "email"))])]

/-- The definition with one part compiled. -/
private def pairedFinished : Definition :=
  .object [
    ("a", .array [.tree (.field "email"), .value (.int 1)]),
    ("b", .tree (.object [("c", .field "uuid"), ("d", .field "email")]))]

/-- A user who differs in the first name. -/
private def renamed : Row .user :=
  ⟨1, "u1", .integer 1, .user "Augusta" "King" "ada@acme.example" none, none, 0, 0⟩

theorem listed_fields_decide_reading_paired :
    Sample.ada ≠ renamed ∧ (compile paired).fields = ["email", "uuid", "email"] ∧
    (compile paired).read (Sample.ada.shown? []) = (compile paired).read (renamed.shown? []) ∧
    Sample.ada.render [] (compile paired) = renamed.render [] (compile paired) ∧
    ¬(∃ name, Sample.ada.render [] (compile paired) = .error (.refused (.configuration (.unreadable .user name)))) ∧
    (∃ value, renamed.render [] (Sample.config true).users.schema = .ok value) ∧
    Finished paired pairedFinished ∧ compile pairedFinished = compile paired := by
  obtain ⟨hread, -, hrender, hunreadable, hbuilt, hcompile⟩ := listed_fields_decide_reading
  have hagree : ∀ name ∈ (compile paired).fields, Sample.ada.shown? [] name = renamed.shown? [] name := by
    decide +kernel
  have hshown : ¬∃ name ∈ (compile paired).fields, Sample.ada.shown? [] name = none := by decide +kernel
  have hpart := Finished.compiled (.object [("c", .tree (.field "uuid")), ("d", .tree (.field "email"))])
  have hfinished : Finished paired pairedFinished := .object rfl (.cons (.same _) (.cons hpart .nil))
  exact ⟨by decide +kernel, by decide +kernel, hread _ _ _ hagree, hrender _ _ _ _ _ _ rfl rfl hagree,
    mt (hunreadable _ _ _ _ rfl).1 hshown, (hbuilt _ _ (Sample.build_config true)).1 .user renamed, hfinished,
    (hcompile paired).2.1 _ hfinished⟩

end Schema

end Roster
