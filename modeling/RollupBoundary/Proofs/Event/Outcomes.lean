import Mathlib
import RollupBoundary.Event.Outcomes

/-!
# No log is lost among many

When many logs are decoded, those of the event are picked out and their outcomes parted into events
and errors.  Each outcome keeps the place that its log has among all logs, not among the logs of the
event: the logs are numbered first and picked out afterwards (`decodeMatchingFrom_eq`).  All else
follows from this form, in which events and errors are the same list of outcomes seen through one
of two filters (`outcomesOfKind`).

`Parts` says what it means that nothing is lost, doubled or moved, and
`decodeMatching_losesNothing` that the outcomes of the logs of an event are the only ones of which it
is true.  Lists of logs can therefore be cut anywhere and decoded piece by piece.
-/

namespace RollupBoundary.EventSchema

/-! ## Outcomes of one kind -/

/-- The fault in an outcome, if it is one. -/
def fault? : Except EventError Event → Option EventError
  | .ok _ => none
  | .error e => some e

lemma toOption_eq_some_iff {r : Except EventError Event} {e : Event} :
    r.toOption = some e ↔ r = .ok e := by
  cases r <;> simp [Except.toOption]

lemma fault?_eq_some_iff {r : Except EventError Event} {e : EventError} :
    fault? r = some e ↔ r = .error e := by
  cases r <;> simp [fault?]

/-- The outcomes of one kind among those of the logs of the event, with the places of the logs, of
which the first one has the place `place`. -/
def outcomesOfKind {α : Type} (s : EventSchema) (kind? : Except EventError Event → Option α)
    (place : Nat) (logs : List EventLog) : List (Nat × α) :=
  (logs.zipIdx place).filterMap fun log =>
    if s.isOf log.1 then (kind? (s.decode log.1)).map (Prod.mk log.2) else none

variable {s : EventSchema} {α : Type} {kind? : Except EventError Event → Option α}
variable {logs logs' : List EventLog}

lemma outcomesOfKind_cons (place : Nat) (log : EventLog) (logs : List EventLog) :
    s.outcomesOfKind kind? place (log :: logs) =
      (if s.isOf log then ((kind? (s.decode log)).map (Prod.mk place)).toList else []) ++
        s.outcomesOfKind kind? (place + 1) logs := by
  rw [outcomesOfKind, List.zipIdx_cons, List.filterMap_cons]
  cases s.isOf log with
  | false => rfl
  | true => cases kind? (s.decode log) <;> rfl

/-- Events and errors are filtered from the logs after these have been numbered. -/
lemma decodeMatchingFrom_eq (s : EventSchema) (place : Nat) (logs : List EventLog) :
    s.decodeMatchingFrom place logs =
      ⟨s.outcomesOfKind Except.toOption place logs, s.outcomesOfKind fault? place logs⟩ := by
  induction logs generalizing place with
  | nil => rfl
  | cons log logs ih =>
    rw [decodeMatchingFrom, ih, outcomesOfKind_cons, outcomesOfKind_cons]
    cases s.isOf log with
    | false => rfl
    | true => cases s.decode log <;> rfl

lemma mem_outcomesOfKind_iff {i : Nat} {x : α} :
    (i, x) ∈ s.outcomesOfKind kind? 0 logs ↔
      ∃ log, logs[i]? = some log ∧ s.isOf log = true ∧ kind? (s.decode log) = some x := by
  rw [outcomesOfKind, List.mem_filterMap]
  constructor
  · rintro ⟨⟨log, j⟩, hmem, hpicked⟩
    have hlog : logs[j]? = some log := List.mk_mem_zipIdx_iff_getElem?.1 hmem
    rw [Option.ite_none_right_eq_some, Option.map_eq_some_iff] at hpicked
    obtain ⟨hof, y, hy, heq⟩ := hpicked
    cases heq
    exact ⟨log, hlog, hof, hy⟩
  · rintro ⟨log, hlog, hof, hx⟩
    exact ⟨(log, i), List.mk_mem_zipIdx_iff_getElem?.2 hlog, by simp [hof, hx]⟩

/-- The places increase, for picking out does not move anything. -/
lemma pairwise_outcomesOfKind (place : Nat) :
    (s.outcomesOfKind kind? place logs).Pairwise fun x y => x.1 < y.1 := by
  have hplaces : (logs.zipIdx place).Pairwise fun x y => x.2 < y.2 := by
    have hrange := List.pairwise_lt_range' (s := place) (n := logs.length) 1
    rwa [← List.zipIdx_map_snd place logs, List.pairwise_map] at hrange
  refine hplaces.filterMap _ fun x y hlt b hb b' hb' => ?_
  rw [Option.ite_none_right_eq_some, Option.map_eq_some_iff] at hb hb'
  obtain ⟨-, _, -, rfl⟩ := hb
  obtain ⟨-, _, -, rfl⟩ := hb'
  exact hlt

lemma outcomesOfKind_append (place : Nat) :
    s.outcomesOfKind kind? place (logs ++ logs') =
      s.outcomesOfKind kind? place logs ++ s.outcomesOfKind kind? (place + logs.length) logs' := by
  rw [outcomesOfKind, List.zipIdx_append, List.filterMap_append]
  rfl

lemma outcomesOfKind_add (place n : Nat) :
    s.outcomesOfKind kind? (n + place) logs =
      (s.outcomesOfKind kind? place logs).map (Prod.map (· + n) id) := by
  rw [outcomesOfKind, ← List.map_snd_add_zipIdx_eq_zipIdx, List.filterMap_map, outcomesOfKind,
    List.map_filterMap]
  congr 1
  funext log
  simp only [Function.comp_apply, Prod.map_fst, Prod.map_snd, id]
  split
  · rw [Option.map_map]
    rfl
  · rfl

/-! ## Outcomes of both kinds -/

/-- Outcomes of one list of logs behind those of another. -/
def Outcomes.append (o o' : Outcomes) : Outcomes :=
  ⟨o.events ++ o'.events, o.errors ++ o'.errors⟩

/-- Outcomes of logs that stand `n` places further on. -/
def Outcomes.shift (n : Nat) (o : Outcomes) : Outcomes :=
  ⟨o.events.map (Prod.map (· + n) id), o.errors.map (Prod.map (· + n) id)⟩

/-- The places of the logs that became events. -/
def Outcomes.eventPlaces (o : Outcomes) : List Nat :=
  o.events.map Prod.fst

/-- The places of the logs that became errors. -/
def Outcomes.errorPlaces (o : Outcomes) : List Nat :=
  o.errors.map Prod.fst

/-- That the `i`-th log says that it is of the event. -/
def IsOfAt (s : EventSchema) (logs : List EventLog) (i : Nat) : Prop :=
  ∃ log, logs[i]? = some log ∧ s.isOf log = true

/-- That outcomes are those of the logs of the event, parted into events and errors: each of these
logs is there once, with its own place and outcome, in the order of the logs, and no other log. -/
structure Parts (s : EventSchema) (logs : List EventLog) (o : Outcomes) : Prop where
  increasing : o.eventPlaces.Pairwise (· < ·) ∧ o.errorPlaces.Pairwise (· < ·)
  disjoint : o.eventPlaces.Disjoint o.errorPlaces
  places : ∀ i, i ∈ o.eventPlaces ∨ i ∈ o.errorPlaces ↔ s.IsOfAt logs i
  mem_events : ∀ i e, (i, e) ∈ o.events ↔ s.IsOfAt logs i ∧ (s.decodeEach logs)[i]? = some (.ok e)
  mem_errors : ∀ i e,
    (i, e) ∈ o.errors ↔ s.IsOfAt logs i ∧ (s.decodeEach logs)[i]? = some (.error e)

lemma getElem?_decodeEach (s : EventSchema) (logs : List EventLog) (i : Nat) :
    (s.decodeEach logs)[i]? = (logs[i]?).map s.decode :=
  List.getElem?_map

lemma isOfAt_and_iff {i : Nat} {r : Except EventError Event} :
    s.IsOfAt logs i ∧ (s.decodeEach logs)[i]? = some r ↔
      ∃ log, logs[i]? = some log ∧ s.isOf log = true ∧ s.decode log = r := by
  rw [getElem?_decodeEach, IsOfAt]
  constructor
  · rintro ⟨⟨log, hlog, hof⟩, hr⟩
    rw [hlog] at hr
    exact ⟨log, hlog, hof, Option.some.inj hr⟩
  · rintro ⟨log, hlog, hof, rfl⟩
    exact ⟨⟨log, hlog, hof⟩, by rw [hlog, Option.map_some]⟩

lemma mem_events_iff {i : Nat} {e : Event} :
    (i, e) ∈ (s.decodeMatching logs).events ↔
      s.IsOfAt logs i ∧ (s.decodeEach logs)[i]? = some (.ok e) := by
  simp only [decodeMatching, decodeMatchingFrom_eq, mem_outcomesOfKind_iff, toOption_eq_some_iff,
    isOfAt_and_iff]

lemma mem_errors_iff {i : Nat} {e : EventError} :
    (i, e) ∈ (s.decodeMatching logs).errors ↔
      s.IsOfAt logs i ∧ (s.decodeEach logs)[i]? = some (.error e) := by
  simp only [decodeMatching, decodeMatchingFrom_eq, mem_outcomesOfKind_iff, fault?_eq_some_iff,
    isOfAt_and_iff]

lemma mem_eventPlaces_iff {o : Outcomes} {i : Nat} :
    i ∈ o.eventPlaces ↔ ∃ e, (i, e) ∈ o.events := by
  simp [Outcomes.eventPlaces]

lemma mem_errorPlaces_iff {o : Outcomes} {i : Nat} :
    i ∈ o.errorPlaces ↔ ∃ e, (i, e) ∈ o.errors := by
  simp [Outcomes.errorPlaces]

lemma parts_decodeMatching (s : EventSchema) (logs : List EventLog) :
    s.Parts logs (s.decodeMatching logs) where
  increasing := by
    rw [Outcomes.eventPlaces, Outcomes.errorPlaces, List.pairwise_map, List.pairwise_map,
      decodeMatching, decodeMatchingFrom_eq]
    exact ⟨pairwise_outcomesOfKind 0, pairwise_outcomesOfKind 0⟩
  disjoint := by
    intro i hevent herror
    obtain ⟨e, he⟩ := mem_eventPlaces_iff.1 hevent
    obtain ⟨e', he'⟩ := mem_errorPlaces_iff.1 herror
    -- One log has but one outcome.
    have hsame := (mem_events_iff.1 he).2.symm.trans (mem_errors_iff.1 he').2
    cases hsame
  places := by
    intro i
    rw [mem_eventPlaces_iff, mem_errorPlaces_iff]
    constructor
    · rintro (⟨e, he⟩ | ⟨e, he⟩)
      · exact (mem_events_iff.1 he).1
      · exact (mem_errors_iff.1 he).1
    · rintro ⟨log, hlog, hof⟩
      cases hdecode : s.decode log with
      | ok e =>
        exact .inl ⟨e, mem_events_iff.2 (isOfAt_and_iff.2 ⟨log, hlog, hof, hdecode⟩)⟩
      | error e =>
        exact .inr ⟨e, mem_errors_iff.2 (isOfAt_and_iff.2 ⟨log, hlog, hof, hdecode⟩)⟩
  mem_events _ _ := mem_events_iff
  mem_errors _ _ := mem_errors_iff

/-- Two lists with the same elements in the order of increasing places are one list. -/
lemma eq_of_mem_iff_of_increasing {β : Type} {xs ys : List (Nat × β)}
    (hxs : (xs.map Prod.fst).Pairwise (· < ·)) (hys : (ys.map Prod.fst).Pairwise (· < ·))
    (h : ∀ i x, (i, x) ∈ xs ↔ (i, x) ∈ ys) : xs = ys := by
  rw [List.pairwise_map] at hxs hys
  have : Std.Antisymm fun x y : Nat × β => x.1 < y.1 :=
    ⟨fun _ _ hlt hgt => absurd hgt (Nat.lt_asymm hlt)⟩
  have : Std.Irrefl fun x y : Nat × β => x.1 < y.1 := ⟨fun x => Nat.lt_irrefl x.1⟩
  exact hxs.eq_of_mem_iff hys fun ⟨i, x⟩ => h i x

lemma Parts.eq {o o' : Outcomes} (h : s.Parts logs o) (h' : s.Parts logs o') : o = o' := by
  have hevents : o.events = o'.events :=
    eq_of_mem_iff_of_increasing h.increasing.1 h'.increasing.1 fun i e =>
      (h.mem_events i e).trans (h'.mem_events i e).symm
  have herrors : o.errors = o'.errors :=
    eq_of_mem_iff_of_increasing h.increasing.2 h'.increasing.2 fun i e =>
      (h.mem_errors i e).trans (h'.mem_errors i e).symm
  cases o
  cases o'
  cases hevents
  cases herrors
  rfl

lemma decodeMatching_append (s : EventSchema) (logs logs' : List EventLog) :
    s.decodeMatching (logs ++ logs') =
      (s.decodeMatching logs).append ((s.decodeMatching logs').shift logs.length) := by
  simp only [decodeMatching, decodeMatchingFrom_eq, outcomesOfKind_append, Outcomes.append,
    Outcomes.shift, ← outcomesOfKind_add, Nat.zero_add, Nat.add_zero]

/-- The outcomes of the logs of an event are there once each, at the places of their logs.

To decode each log gives as many outcomes as there are logs, in their order.  To decode those of the
event parts their outcomes into events and errors, and no other lists of events and errors do so.
Logs may therefore be cut anywhere, with the places of the second piece moved by the length of the
first.  No log says that it is of an anonymous event, so there are no outcomes then. -/
theorem decodeMatching_losesNothing (s : EventSchema) (logs : List EventLog) :
    ((s.decodeEach logs).length = logs.length ∧
      ∀ i : Nat, (s.decodeEach logs)[i]? = (logs[i]?).map s.decode) ∧
    (∀ o, s.Parts logs o ↔ o = s.decodeMatching logs) ∧
    (∀ front back, logs = front ++ back → s.decodeMatching logs =
      (s.decodeMatching front).append ((s.decodeMatching back).shift front.length)) ∧
    (s.anonymous = true → s.decodeMatching logs = ⟨[], []⟩) := by
  have hparts := s.parts_decodeMatching logs
  refine ⟨⟨List.length_map _, s.getElem?_decodeEach logs⟩, fun o => ⟨fun h => h.eq hparts, ?_⟩,
    ?_, fun hanonymous => ?_⟩
  · rintro rfl
    exact hparts
  · rintro front back rfl
    exact s.decodeMatching_append front back
  · have hnone : ∀ i, ¬ s.IsOfAt logs i := by
      rintro i ⟨log, -, hof⟩
      simp [isOf, hanonymous] at hof
    refine hparts.eq ⟨⟨.nil, .nil⟩, List.disjoint_nil_left _, ?_, ?_, ?_⟩
    · intro i
      simp [Outcomes.eventPlaces, Outcomes.errorPlaces, hnone i]
    · intro i e
      simp [hnone i]
    · intro i e
      simp [hnone i]

end RollupBoundary.EventSchema
