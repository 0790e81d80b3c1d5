import Mathlib
import RollupBoundary.Event.Schema
import RollupBoundary.Proofs.Abi.Document
import RollupBoundary.Proofs.Event.Decode

/-!
# A schema is that of the first event of its name

A document is taken apart before an event is looked up in it: each item goes to those of its kind,
and there to those of its name.  What the events of a name are is decided by the order of the items
all the same.  One item adds itself behind the events of its own name if it is an event, and nothing
to any other name (`named_add`), so in the end the events of a name are those of the document, in the
order of the document (`named_declarations`).

A schema is therefore bound from the first event of the name, and whatever else the document declares
makes no difference (`bind_firstOfName`).
-/

namespace RollupBoundary

open Abi

/-! ## Declarations of a name -/

namespace Abi

lemma ByName.named_add {α : Type} (m : ByName α) (name name' : String) (x : α) :
    (m.add name x).named name' = m.named name' ++ if name = name' then [x] else [] := by
  obtain ⟨entries⟩ := m
  induction entries with
  | nil => by_cases h : name = name' <;> simp [add, addEntry, named, h]
  | cons e es ih =>
    simp only [add, addEntry, named] at ih ⊢
    by_cases hadd : e.1 = name
    · -- The declaration is added to the entry in front, which is that of its name.
      rw [if_pos hadd, List.find?_cons, List.find?_cons, hadd]
      by_cases h : name = name' <;> simp [h]
    · rw [if_neg hadd, List.find?_cons, List.find?_cons]
      by_cases h : e.1 = name'
      · have hne : name ≠ name' := fun heq => hadd (h.trans heq.symm)
        simp [h, hne]
      · simpa [h] using ih

/-- The events of a name among the items of a document, in their order. -/
def Document.eventsNamed (d : Document) (name : String) : List EventDecl :=
  d.filterMap fun
    | .event e => if e.name = name then some e else none
    | _ => none

/-- An item adds itself to the events of its name, if it is an event, and nothing to those of any
other name. -/
lemma Declarations.named_add (d : Declarations) (item : Item) (name : String) :
    (d.add item).events.named name = d.events.named name ++ Document.eventsNamed [item] name := by
  cases item with
  | event e =>
    rw [add, ByName.named_add, Document.eventsNamed]
    by_cases h : e.name = name <;> simp [h]
  | _ => exact (List.append_nil _).symm

/-- The events of a name are those of the document, in its order. -/
theorem Document.named_declarations (d : Document) (name : String) :
    d.declarations.events.named name = d.eventsNamed name := by
  have hfold (m : Declarations) :
      (d.foldl Declarations.add m).events.named name = m.events.named name ++ d.eventsNamed name := by
    induction d generalizing m with
    | nil => exact (List.append_nil _).symm
    | cons item d ih =>
      rw [List.foldl_cons, ih, Declarations.named_add, List.append_assoc, eventsNamed, eventsNamed,
        ← List.filterMap_append, eventsNamed, List.singleton_append]
  exact hfold .empty

lemma Document.event?_declarations (d : Document) (name : String) :
    d.declarations.event? name = (d.eventsNamed name).head? := by
  rw [Declarations.event?, named_declarations]

lemma Document.eventsNamed_events (es : List EventDecl) (name : String) :
    eventsNamed (es.map Item.event) name = es.filter fun e => e.name = name := by
  rw [eventsNamed, List.filterMap_map, ← List.filterMap_eq_filter]
  refine List.filterMap_congr fun e _ => ?_
  by_cases h : e.name = name <;> simp [h, Option.guard]

lemma Document.eventsNamed_eq_nil_iff {d : Document} {name : String} :
    d.eventsNamed name = [] ↔ ∀ e, .event e ∈ d → e.name ≠ name := by
  rw [eventsNamed, List.filterMap_eq_nil_iff]
  constructor
  · intro h e he hname
    have hnone : (if e.name = name then some e else none) = none := h _ he
    rw [if_pos hname] at hnone
    cases hnone
  · intro h item hitem
    cases item with
    | event e => exact if_neg (h e hitem)
    | _ => rfl

lemma Document.eventsNamed_append (d d' : Document) (name : String) :
    eventsNamed (d ++ d') name = d.eventsNamed name ++ d'.eventsNamed name :=
  List.filterMap_append

end Abi

/-! ## Binding -/

namespace EventSchema

variable {abi name : String} {d : Document}

lemma bind_of_parse (h : Document.parse abi = some d) :
    bind abi name = (d.eventsNamed name).head?.elim (.error (.noSuchEvent name)) ofDecl := by
  rw [bind, h]
  simp only [Document.event?_declarations]
  cases (d.eventsNamed name).head? <;> rfl

lemma ofParams_error {place : Nat} {ps : List EventParam} {err : BindError}
    (h : EventField.ofParams place ps = .error err) :
    ∃ param type fault, err = .unresolvedType param type fault := by
  induction ps generalizing place with
  | nil => cases h
  | cons p ps ih =>
    rw [EventField.ofParams] at h
    obtain hfirst | ⟨f, -, h⟩ := bind_eq_error_iff.1 h
    · rw [EventField.ofParam] at hfirst
      split at hfirst <;> cases hfirst
      exact ⟨_, _, _, rfl⟩
    · obtain hothers | ⟨fs, -, h⟩ := bind_eq_error_iff.1 h
      · exact ih hothers
      · cases h

/-- An event that is there has a schema, or a parameter whose type cannot be resolved. -/
lemma ofDecl_ne_noSuchEvent (e : EventDecl) (name : String) :
    ofDecl e ≠ .error (.noSuchEvent name) := by
  intro h
  rw [ofDecl] at h
  obtain hparams | ⟨fs, -, h⟩ := bind_eq_error_iff.1 h
  · obtain ⟨_, _, _, herror⟩ := ofParams_error hparams
    cases herror
  · cases h

/-- A schema is bound from the first event of its name, and there is none exactly if the document
declares no event of that name.  So documents that have the same first event of a name give the same
schema for it, or the same fault, whatever else they declare and wherever that stands. -/
theorem bind_firstOfName (h : Document.parse abi = some d) :
    (∀ before e after, d = before ++ .event e :: after → e.name = name →
      (∀ e', .event e' ∈ before → e'.name ≠ name) → bind abi name = ofDecl e) ∧
    (bind abi name = .error (.noSuchEvent name) ↔ ∀ e, .event e ∈ d → e.name ≠ name) ∧
    ∀ abi' d' e rest rest', Document.parse abi' = some d' → d.eventsNamed name = e :: rest →
      d'.eventsNamed name = e :: rest' → bind abi' name = bind abi name := by
  refine ⟨fun before e after hd hname hbefore => ?_, ?_, ?_⟩
  · have hfirst : (d.eventsNamed name).head? = some e := by
      rw [hd, Document.eventsNamed_append, Document.eventsNamed_eq_nil_iff.2 hbefore,
        Document.eventsNamed]
      simp [hname]
    rw [bind_of_parse h, hfirst, Option.elim_some]
  · rw [bind_of_parse h, ← Document.eventsNamed_eq_nil_iff]
    cases d.eventsNamed name with
    | nil => exact iff_of_true rfl rfl
    | cons e rest => exact iff_of_false (ofDecl_ne_noSuchEvent e name) (List.cons_ne_nil e rest)
  · intro abi' d' e rest rest' h' hevents hevents'
    rw [bind_of_parse h, bind_of_parse h', hevents, hevents']
    rfl

/-- An event with a number. -/
def countDecl : EventDecl where
  name := "Count"
  inputs := [⟨.mk "n" "uint256" [], false⟩]
  anonymous := false

/-- Another event of that name. -/
def markedCountDecl : EventDecl where
  name := "Count"
  inputs := [⟨.mk "n" "uint256" [], true⟩]
  anonymous := true

/-- An event of another name. -/
def resetDecl : EventDecl where
  name := "Reset"
  inputs := []
  anonymous := false

/-- A function without parameters and results. -/
def countFunction : Json :=
  .object [
    (some "type", .string (some "function")),
    (some "name", .string (some "Count")),
    (some "inputs", .array []),
    (some "outputs", .array [])]

/-- An error without parameters. -/
def countError : Json :=
  .object [
    (some "type", .string (some "error")),
    (some "name", .string (some "Count")),
    (some "inputs", .array [])]

/-- A document with two events of one name, behind a function of that name and before an error of
that name. -/
def countsDocument : Json :=
  .array [countFunction, resetDecl.toJson, countDecl.toJson, markedCountDecl.toJson, countError]

/-- The items of the document. -/
def countsItems : Document :=
  [.function "Count" [] [], .event resetDecl, .event countDecl, .event markedCountDecl,
    .error "Count" []]

lemma parse_countsDocument : Document.parse countsDocument.render = some countsItems := by
  have hfunction : readItem countFunction = some (.function "Count" [] []) := rfl
  have herror : readItem countError = some (.error "Count" []) := rfl
  have hreset : readItem resetDecl.toJson = some (.event resetDecl) := readItem_toJson rfl
  have hcount : readItem countDecl.toJson = some (.event countDecl) := readItem_toJson rfl
  have hmarked : readItem markedCountDecl.toJson = some (.event markedCountDecl) :=
    readItem_toJson rfl
  have hdocument : Document.ofJson? countsDocument = some countsItems := by
    rw [countsDocument, Document.ofJson?]
    simp only [List.mapM_cons, List.mapM_nil, hfunction, hreset, hcount, hmarked, herror]
    rfl
  have hbufferable : countsDocument.isBufferable = true := rfl
  rw [Document.parse, Json.parse_render]
  simp only [Option.bind_eq_bind, Option.bind_some, hbufferable, if_true, hdocument]

theorem countsDocument_firstOfName :
    Document.parse countsDocument.render = some countsItems ∧
    bind countsDocument.render "Count" = ofDecl countDecl ∧
    bind (Document.ofEvents [countDecl, resetDecl]).render "Count" = ofDecl countDecl := by
  have hother : Document.parse (Document.ofEvents [countDecl, resetDecl]).render =
      some [.event countDecl, .event resetDecl] := Document.parse_render (by decide)
  have hbind : bind countsDocument.render "Count" = ofDecl countDecl :=
    (bind_firstOfName parse_countsDocument).1 [.function "Count" [] [], .event resetDecl] countDecl
      [.event markedCountDecl, .error "Count" []] rfl rfl (by simp [resetDecl])
  have hsame : bind (Document.ofEvents [countDecl, resetDecl]).render "Count" =
      bind countsDocument.render "Count" :=
    (bind_firstOfName parse_countsDocument).2.2 _ _ countDecl [markedCountDecl] [] hother rfl rfl
  exact ⟨parse_countsDocument, hbind, hsame.trans hbind⟩

end EventSchema
end RollupBoundary
