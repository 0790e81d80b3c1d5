import Mathlib
import RollupBoundary.Proofs.Abi.Places
import RollupBoundary.Proofs.Event.Decode

/-!
# Which words of the data are held to their canonical form

The data of a log is checked in two places.  The word at the head of a field has to be canonical if
the field is of one word, and every number inside a value has to fit its width.  Neither check
follows the decoder into arrays and tuples, so what they amount to is not plain from either of them.

In terms of the words that values were taken from it is (`exists_valuesOfData_iff`): data in memory
has values if its payload has no fault and each word is canonical that is checked, which are the words
of fields of their own and those of numbers at any depth.  That the head is where the decoder
stands is part of it (`headIsCanonical_iff`).

The rule for words of the chain says more.  It asks every word to be canonical, so a truth value of
`2` in an array should make a log undecodable, and does not (`flagsLog_not_holdsNested`).
`holdsNested_iff` says for which logs the rule holds.
-/

namespace RollupBoundary

open Abi

/-- Whether the decoder holds a word to its canonical form: the word of a field of its own, and
every number. -/
def Abi.WordPlace.isChecked (p : WordPlace) : Bool :=
  !p.nested || p.type.isNumber

namespace EventSchema

/-- The words that the values in the data were taken from; none if the payload has a fault. -/
def places (s : EventSchema) (data : Bytes) : List WordPlace :=
  match payloadPlaces s.dataTypes data with
  | .ok ps => ps
  | .error _ => []

/-! ## The check, word by word -/

variable {data : Bytes}

/-- The numbers of a value fit their widths if their words are canonical. -/
lemma inRange_iff_of_takenFrom {v : AbiValue} {ps : List WordPlace} (h : TakenFrom data v ps) :
    v.inRange = true ↔
      ∀ p ∈ ps, p.type.isNumber = true → p.isCanonical data = true := by
  rw [AbiValue.inRange_iff, h.1, List.forall_mem_map]
  simp only [WordPlace.value, WordType.inRange_decode_iff, WordPlace.isCanonical]

/-- The check at the head looks at the word that a field of one word was taken from, and passes
every other field. -/
lemma headIsCanonical_iff {t : AbiType} {c c' : Cursor} {v : AbiValue} {ps : List WordPlace}
    (hbuffer : c.buffer = data) (htaken : TakenFrom data v ps)
    (hplaces : AbiType.places data t c = .ok (ps, c')) :
    headIsCanonical t c.offset data = true ↔
      ∀ p ∈ ps, p.nested = false → p.isCanonical data = true := by
  by_cases hword : ∃ w, t = .word w
  · obtain ⟨w, rfl⟩ := hword
    obtain ⟨_, -, rfl⟩ := readMap_eq_ok_iff.1 hplaces
    have hplace : c.place data = c.offset := by
      rw [Cursor.place, hbuffer, Nat.sub_self, Nat.zero_add]
    have hle : c.place data + 32 ≤ data.length := htaken.2 _ List.mem_cons_self
    rw [hplace] at hle ⊢
    rw [headIsCanonical, if_pos hle, List.forall_mem_singleton]
    exact ⟨fun h _ => h, fun h => h rfl⟩
  · have hnested := nested_of_places hplaces fun w hw => hword ⟨w, hw⟩
    have hhead : headIsCanonical t c.offset data = true := by
      cases t with
      | word w => exact absurd ⟨w, rfl⟩ hword
      | _ => rfl
    refine iff_of_true hhead fun p hp htop => ?_
    rw [hnested p hp] at htop
    cases htop

lemma passes_iff {t : AbiType} {c c' : Cursor} {v : AbiValue} {ps : List WordPlace}
    (hbuffer : c.buffer = data) (htaken : TakenFrom data v ps)
    (hplaces : AbiType.places data t c = .ok (ps, c')) :
    headIsCanonical t c.offset data = true ∧ v.inRange = true ↔
      ∀ p ∈ ps, p.isChecked = true → p.isCanonical data = true := by
  rw [headIsCanonical_iff hbuffer htaken hplaces, inRange_iff_of_takenFrom htaken, ← forall₂_and]
  refine forall₂_congr fun p _ => ?_
  rw [WordPlace.isChecked, Bool.or_eq_true, Bool.not_eq_true', or_imp]

/-- Values pass if each of their words that is checked is canonical. -/
lemma checkValues_eq_ok_iff (hsmall : data.length < 2 ^ 64) {fs : List EventField}
    {start : UInt64} {place : Nat} (hstart : start.toNat = place) {vs : List AbiValue}
    {pss : List (List WordPlace)} {c c' : Cursor}
    (hread : AbiType.readAll (fs.map EventField.type) ⟨data, place, 0⟩ = .ok (vs, c))
    (hplaces : AbiType.placesAll data (fs.map EventField.type) ⟨data, place, 0⟩ = .ok (pss, c')) :
    checkValues data fs (AbiType.headOffsets start (fs.map EventField.type)) vs = .ok () ↔
      ∀ p ∈ pss.flatten, p.isChecked = true → p.isCanonical data = true := by
  induction fs generalizing start place vs pss c c' with
  | nil =>
    cases hread
    cases hplaces
    exact iff_of_true rfl (by simp)
  | cons f fs ih =>
    rw [List.map_cons, Cursor.readAll_cons, Cursor.andThen_eq_ok_iff] at hread
    rw [List.map_cons, AbiType.placesAll, Cursor.andThen_eq_ok_iff] at hplaces
    obtain ⟨v, vs, c₁, hfirst, hothers, rfl⟩ := hread
    obtain ⟨ps, pss, c₂, hnoted, hothers', rfl⟩ := hplaces
    obtain ⟨e, herror, -⟩ | ⟨v', ps', htaken, hreaches, hfirst', hnoted'⟩ :=
      inStep_read data f.type ⟨data, place, 0⟩ List.suffix_rfl
    · rw [herror] at hfirst
      cases hfirst
    · -- Both readers stand where the head of the next field begins.
      rw [hfirst'] at hfirst
      rw [hnoted'] at hnoted
      cases hfirst
      cases hnoted
      have hnext := AbiType.toNat_add_headWords_of_le hstart hsmall hreaches
      rw [List.map_cons, AbiType.headOffsets, checkValues_cons_eq_ok_iff,
        ih hnext hothers hothers', hstart, ← and_assoc,
        passes_iff (c := ⟨data, place, 0⟩) rfl htaken hnoted', List.flatten_cons,
        List.forall_mem_append]

/-! ## Payloads and logs -/

variable {s : EventSchema} {log : EventLog}

/-- Data has values if its payload has no fault and each word that is checked is canonical. -/
theorem exists_valuesOfData_iff (hsmall : data.length < 2 ^ 64) :
    (∃ vs, s.valuesOfData data = .ok vs) ↔
      (∃ vs, decodeSequence s.dataTypes data = .ok vs) ∧
        ∀ p ∈ s.places data, p.isChecked = true → p.isCanonical data = true := by
  simp only [valuesOfData_eq_ok_iff]
  rw [places]
  obtain ⟨hread, hnote⟩ | ⟨e, hread, hnote⟩ | ⟨vs, pss, c, hall, hnoted, hread, hnote⟩ :=
    payload_cases s.dataTypes data
  · rw [hread, hnote]
    refine iff_of_true ⟨[], rfl, ?_⟩ ⟨⟨[], rfl⟩, by simp⟩
    cases s.dataFields <;> cases AbiType.headOffsets 0 s.dataTypes <;> rfl
  · rw [hread, hnote]
    exact iff_of_false (fun ⟨_, h, _⟩ => nomatch h) (fun ⟨⟨_, h⟩, _⟩ => nomatch h)
  · rw [hread, hnote]
    have hstart : (0 : UInt64).toNat = 0 := rfl
    have hcheck := checkValues_eq_ok_iff hsmall hstart hall hnoted
    constructor
    · rintro ⟨_, h, hpasses⟩
      cases h
      exact ⟨⟨vs, rfl⟩, hcheck.1 hpasses⟩
    · rintro ⟨-, hcanonical⟩
      exact ⟨vs, rfl, hcheck.2 hcanonical⟩

lemma exists_of_mem_places {p : WordPlace} (hp : p ∈ s.places data) :
    ∃ vs, decodeSequence s.dataTypes data = .ok vs := by
  rw [places] at hp
  obtain ⟨hread, -⟩ | ⟨e, -, hnote⟩ | ⟨vs, pss, c, -, -, hread, -⟩ :=
    payload_cases s.dataTypes data
  · exact ⟨_, hread⟩
  · rw [hnote] at hp
    cases hp
  · exact ⟨_, hread⟩

lemma length_valuesOfData {vs : List AbiValue} {p : WordPlace} (h : s.valuesOfData data = .ok vs)
    (hp : p ∈ s.places data) : vs.length = s.dataFields.length := by
  rw [valuesOfData_eq_ok_iff] at h
  rw [places] at hp
  obtain ⟨-, hnote⟩ | ⟨e, -, hnote⟩ | ⟨vs', pss, c, hall, -, hread, -⟩ :=
    payload_cases s.dataTypes data
  · rw [hnote] at hp
    cases hp
  · rw [hnote] at hp
    cases hp
  · rw [hread] at h
    cases h.1
    rw [length_of_readAll hall, dataTypes, List.length_map]

/-- The rule that a word inside an array or a tuple is held to its canonical form, for one log: a
decoded log has no other such word in its data, and data with another one is refused. -/
def HoldsNested (s : EventSchema) (log : EventLog) : Prop :=
  (∀ e, s.decode log = .ok e →
    ∀ p ∈ s.places log.data, p.nested = true → p.isCanonical log.data = true) ∧
  ((∃ p ∈ s.places log.data, p.nested = true ∧ p.isCanonical log.data = false) →
    ∃ fault, s.decode log = .error (.data fault))

/-- What the decoder does hold to its canonical form, and when that amounts to the rule.

A decoded log has canonical words in fields of their own and as numbers everywhere.  Of truth
values, addresses, functions and fixed octets inside an array or a tuple nothing is checked, so the
rule holds of a log exactly if a word that breaks it comes with one that is checked and is not
canonical either.  The data of a log in memory is always shorter than `2 ^ 64` octets. -/
theorem holdsNested_iff (s : EventSchema) (log : EventLog) (hsmall : log.data.length < 2 ^ 64) :
    (∀ e, s.decode log = .ok e →
      ∀ p ∈ s.places log.data, p.isChecked = true → p.isCanonical log.data = true) ∧
    (s.HoldsNested log ↔
      ((∃ p ∈ s.places log.data, p.nested = true ∧ p.isCanonical log.data = false) →
        ∃ p ∈ s.places log.data, p.isChecked = true ∧ p.isCanonical log.data = false)) := by
  have hchecked : ∀ e, s.decode log = .ok e →
      ∀ p ∈ s.places log.data, p.isChecked = true → p.isCanonical log.data = true := by
    intro e he
    obtain ⟨-, us, vs, hvs, -, -⟩ := decode_eq_ok_iff.1 he
    exact ((exists_valuesOfData_iff hsmall).1 ⟨vs, hvs⟩).2
  refine ⟨hchecked, ?_, ?_⟩
  · rintro ⟨-, hrefused⟩ ⟨p, hp, hnested⟩
    obtain ⟨fault, hfault⟩ := hrefused ⟨p, hp, hnested⟩
    by_contra hnone
    have hcanonical : ∀ p ∈ s.places log.data, p.isChecked = true →
        p.isCanonical log.data = true := by
      intro q hq hqchecked
      rw [← Bool.not_eq_false]
      exact fun hfalse => hnone ⟨q, hq, hqchecked, hfalse⟩
    obtain ⟨vs, hvs⟩ :=
      (exists_valuesOfData_iff hsmall).2 ⟨exists_of_mem_places hp, hcanonical⟩
    exact decode_ne_data_error hvs (length_valuesOfData hvs hp) fault hfault
  · intro hrule
    have hrefused : (∃ p ∈ s.places log.data, p.nested = true ∧ p.isCanonical log.data = false) →
        ∃ fault, s.decode log = .error (.data fault) := by
      intro hnested
      obtain ⟨p, hp, hpchecked, hfalse⟩ := hrule hnested
      cases hvalues : s.valuesOfData log.data with
      | error err =>
        obtain ⟨fault, rfl⟩ := valuesOfData_error hvalues
        exact ⟨fault, decode_of_valuesOfData_error hvalues⟩
      | ok vs =>
        rw [((exists_valuesOfData_iff hsmall).1 ⟨vs, hvalues⟩).2 p hp hpchecked] at hfalse
        cases hfalse
    refine ⟨fun e he p hp hnested => ?_, hrefused⟩
    rw [← Bool.not_eq_false]
    intro hfalse
    obtain ⟨fault, hfault⟩ := hrefused ⟨p, hp, hnested, hfalse⟩
    rw [he] at hfault
    cases hfault

/-- An event with an array of truth values. -/
def flagsDecl : EventDecl where
  name := "T"
  inputs := [⟨.mk "v" "bool[2]" [], false⟩, ⟨.mk "tail" "bool" [], false⟩]
  anonymous := false

/-- The schema of the event. -/
def flagsSchema : EventSchema where
  name := "T"
  signature := "T(bool[2],bool)"
  selector := Keccak.digest (Utf8.encode "T(bool[2],bool)")
  anonymous := false
  fields := [⟨"v", .fixedArray (.word .bool) 2, false⟩, ⟨"tail", .word .bool, false⟩]

/-- A log whose last two words are neither of the two truth values. -/
def wrongLog : EventLog where
  topics := [flagsSchema.selector]
  data := [0, 2, 2].flatMap Word.toBytes

/-- The rule holds of that log, of which the last word is checked and the one before it is not. -/
theorem wrongLog_holdsNested :
    wrongLog.data.length < 2 ^ 64 ∧ flagsSchema.HoldsNested wrongLog := by
  have hsmall : wrongLog.data.length < 2 ^ 64 := by decide +kernel
  have hplaces : flagsSchema.places wrongLog.data =
      [⟨.bool, 0, true⟩, ⟨.bool, 32, true⟩, ⟨.bool, 64, false⟩] := rfl
  have hlast : (⟨.bool, 64, false⟩ : WordPlace).isCanonical wrongLog.data = false := by decide
  refine ⟨hsmall, (holdsNested_iff flagsSchema wrongLog hsmall).2.2 fun _ => ?_⟩
  exact ⟨⟨.bool, 64, false⟩, by rw [hplaces]; simp, rfl, hlast⟩

/-- A log whose second word is neither of the two truth values. -/
def flagsLog : EventLog where
  topics := [flagsSchema.selector]
  data := [0, 2, 1].flatMap Word.toBytes

theorem flagsLog_not_holdsNested :
    ofDecl flagsDecl = .ok flagsSchema ∧ ¬ flagsSchema.HoldsNested flagsLog := by
  refine ⟨rfl, fun hrule => ?_⟩
  have hdecode : flagsSchema.decode flagsLog = .ok ⟨"T",
      [⟨"v", .fixedArray [.word (.bool false), .word (.bool true)], false⟩,
        ⟨"tail", .word (.bool true), false⟩]⟩ := rfl
  have hplaces : flagsSchema.places flagsLog.data =
      [⟨.bool, 0, true⟩, ⟨.bool, 32, true⟩, ⟨.bool, 64, false⟩] := rfl
  have hcanonical : (⟨.bool, 32, true⟩ : WordPlace).isCanonical flagsLog.data = true :=
    hrule.1 _ hdecode _ (by rw [hplaces]; simp) rfl
  exact absurd hcanonical (by decide)

end EventSchema
end RollupBoundary
