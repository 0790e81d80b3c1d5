import Mathlib
import RollupBoundary.Abi.Document
import RollupBoundary.Proofs.Json.RoundTrip

/-!
# Documents of plain events

A document can be written for declared events whose parameters have no components: an array with
one object for each event.  Such a document declares just these events (`parse_render`), so there is
a document for every event of this kind.
-/

namespace RollupBoundary.Abi

/-- That a parameter has no components, and a name and a type as a document may give them. -/
def EventParam.isPlain (p : EventParam) : Bool :=
  p.param.components.isEmpty && mayName p.param.name && mayType p.param.type []

/-- That an event may stand in a document, without any components. -/
def EventDecl.isPlain (e : EventDecl) : Bool :=
  mayName e.name && e.inputs.all EventParam.isPlain

/-- The object of a parameter without components. -/
def EventParam.toJson (p : EventParam) : Json :=
  .object [
    (some "name", .string (some p.param.name)),
    (some "type", .string (some p.param.type)),
    (some "indexed", .bool p.indexed)]

/-- The object of an event without components. -/
def EventDecl.toJson (e : EventDecl) : Json :=
  .object [
    (some "type", .string (some "event")),
    (some "name", .string (some e.name)),
    (some "inputs", .array (e.inputs.map EventParam.toJson)),
    (some "anonymous", .bool e.anonymous)]

/-- The document of events without components. -/
def Document.ofEvents (es : List EventDecl) : Json :=
  .array (es.map EventDecl.toJson)

/-! ## Parameters -/

lemma readMembers_cons {key : String} {value : Json} {m : ParamMember}
    {members : List (JsonText × Json)} {ms : List ParamMember}
    (hvalue : readMember key value = some m) (hmembers : readMembers members = some ms) :
    readMembers ((some key, value) :: members) = some (m :: ms) := by
  rw [readMembers, hmembers]
  simp only [Option.bind_eq_bind, Option.bind_some, hvalue, Option.pure_def]

lemma readEventParam_toJson {p : EventParam} (h : p.isPlain) :
    readEventParam p.toJson = some p := by
  obtain ⟨⟨name, type, components⟩, indexed⟩ := p
  simp only [EventParam.isPlain, Param.components, Param.name, Param.type, Bool.and_eq_true,
    List.isEmpty_iff] at h
  obtain ⟨⟨rfl, hname⟩, htype⟩ := h
  have hmembers : readMembers [(some "name", .string (some name)),
      (some "type", .string (some type)), (some "indexed", .bool indexed)] =
      some [.name name, .type type, .indexed (some indexed)] := by
    -- A member is read by its key, so each key has to be a literal where its member is unfolded.
    refine readMembers_cons (by rw [readMember]; rfl) ?_
    refine readMembers_cons (by rw [readMember]; rfl) ?_
    refine readMembers_cons (by rw [readMember]) ?_
    rw [readMembers]
  simp only [EventParam.toJson, readEventParam, readMarkedParam, Param.name, Param.type]
  rw [hmembers]
  simp [ofMembers?, atMostOnce, hname, htype]

lemma readEventParamList_toJson {ps : List EventParam} (h : ∀ p ∈ ps, p.isPlain) :
    readEventParamList (.array (ps.map EventParam.toJson)) = some ps := by
  rw [readEventParamList, Json.mapM_map_eq_some fun p hp => readEventParam_toJson (h p hp)]
  exact congrArg some (List.map_id ps)

/-! ## Events -/

lemma readItem_toJson {e : EventDecl} (h : e.isPlain) : readItem e.toJson = some (.event e) := by
  rw [EventDecl.isPlain, Bool.and_eq_true, List.all_eq_true] at h
  simp [EventDecl.toJson, readItem, required?, Json.field?, Json.valuesOf, Json.string?, readKind,
    readName, h.1, readEventParamList_toJson h.2, Json.bool?]

/-! ## Documents -/

namespace Document

lemma itemsFitWithin_of_forall {depth : Nat} {items : List Json}
    (h : ∀ item ∈ items, item.fitsWithin depth) : Json.itemsFitWithin depth items := by
  induction items with
  | nil => rfl
  | cons item items ih =>
    obtain ⟨hitem, hitems⟩ := List.forall_mem_cons.1 h
    rw [Json.itemsFitWithin, hitem, ih hitems]
    rfl

lemma isBufferable_ofEvents (es : List EventDecl) : (ofEvents es).isBufferable = true := by
  have hparams (e : EventDecl) :
      Json.itemsFitWithin 124 (e.inputs.map EventParam.toJson) = true := by
    refine itemsFitWithin_of_forall fun item hitem => ?_
    obtain ⟨p, -, rfl⟩ := List.mem_map.1 hitem
    rfl
  have hevents : Json.itemsFitWithin 126 (es.map EventDecl.toJson) = true := by
    refine itemsFitWithin_of_forall fun item hitem => ?_
    obtain ⟨e, -, rfl⟩ := List.mem_map.1 hitem
    simp [EventDecl.toJson, Json.fitsWithin, Json.membersFitWithin, hparams e]
  simp [ofEvents, Json.isBufferable, Json.fitsWithin, Json.nestingLimit, hevents]

/-- The document of events declares them and nothing else. -/
theorem parse_render {es : List EventDecl} (h : ∀ e ∈ es, e.isPlain) :
    parse (ofEvents es).render = some (es.map Item.event) := by
  have hnone (isKind : Item → Bool) (hkind : ∀ e, isKind (.event e) = false) :
      (es.map Item.event).countP isKind ≤ 1 := by
    rw [List.countP_map, List.countP_eq_zero.2 (by simp [hkind])]
    exact Nat.zero_le 1
  have hitems : ofJson? (ofEvents es) = some (es.map Item.event) := by
    rw [ofEvents, ofJson?, Json.mapM_map_eq_some fun e he => readItem_toJson (h e he)]
    exact if_pos ⟨hnone _ fun _ => rfl, hnone _ fun _ => rfl, hnone _ fun _ => rfl⟩
  rw [parse, Json.parse_render]
  simp only [Option.bind_eq_bind, Option.bind_some, if_pos (isBufferable_ofEvents es), hitems]

end Document
end RollupBoundary.Abi
