import Mathlib
import RollupBoundary.Proofs.Logging.Directives

/-!
# The level that decides

A filter goes through its directives and keeps the closest one so far, where the later of two that
are equally close replaces the earlier.  In the end the one that is kept applies, none before it is
closer, and each behind it that applies is less close (`Filter.deciding?_of_closest`).

Settings are plain if the names of their components are written with letters, digits, hyphens and
underscores, and all levels by their names.  Nothing then changes how the text of the directives is
cut, so each component has its own directive in the filter, behind that of the level for everything
(`Settings.filter?_of_isPlain`).  Which level holds for a target is said by the components alone:
that of the longest name that the target begins with, the last one of those that are the same as
targets, and the level for everything if there is none (`Settings.enabled_of_governs`).
-/

namespace RollupBoundary.Logging

/-! ## The closest directive -/

namespace Filter

variable {target : String} {names : List String} {d : Directive} {before after : List Directive}

/-- One step of the search: a directive that applies takes the place of one that is not closer. -/
def closer (target : String) (names : List String) (best : Option Directive) (d : Directive) :
    Option Directive :=
  if d.appliesTo target names = true ∧ ∀ b ∈ best, b.yieldsTo d = true then some d else best

lemma deciding?_eq_foldl (f : Filter) (target : String) (names : List String) :
    f.deciding? target names = f.directives.foldl (closer target names) none := by
  rw [deciding?]
  congr 1
  funext best d
  cases best <;> by_cases h : d.appliesTo target names = true <;> simp [closer, h]

/-- A directive that does not yield to those that apply is left in its place. -/
lemma foldl_closer_of_not_yieldsTo
    (hafter : ∀ d' ∈ after, d'.appliesTo target names = true → ¬ d.yieldsTo d' = true) :
    after.foldl (closer target names) (some d) = some d := by
  induction after with
  | nil => rfl
  | cons a after ih =>
    rw [List.forall_mem_cons] at hafter
    have hstep : closer target names (some d) a = some d :=
      if_neg fun h => hafter.1 h.1 (h.2 d rfl)
    rw [List.foldl_cons, hstep, ih hafter.2]

/-- A directive that applies is kept if everything before it yields to it, and it to nothing behind
it. -/
lemma foldl_closer {best : Option Directive} (hd : d.appliesTo target names = true)
    (hbest : ∀ b ∈ best, b.yieldsTo d = true)
    (hbefore : ∀ d' ∈ before, d'.appliesTo target names = true → d'.yieldsTo d = true)
    (hafter : ∀ d' ∈ after, d'.appliesTo target names = true → ¬ d.yieldsTo d' = true) :
    (before ++ d :: after).foldl (closer target names) best = some d := by
  induction before generalizing best with
  | nil =>
    have hstep : closer target names best d = some d := if_pos ⟨hd, hbest⟩
    rw [List.nil_append, List.foldl_cons, hstep, foldl_closer_of_not_yieldsTo hafter]
  | cons a before ih =>
    rw [List.forall_mem_cons] at hbefore
    refine ih (fun b hb => ?_) hbefore.2
    rw [closer] at hb
    split at hb
    · next hcloser =>
      cases hb
      exact hbefore.1 hcloser.1
    · exact hbest b hb

lemma deciding?_of_closest (hd : d.appliesTo target names = true)
    (hbefore : ∀ d' ∈ before, d'.appliesTo target names = true → d'.yieldsTo d = true)
    (hafter : ∀ d' ∈ after, d'.appliesTo target names = true → ¬ d.yieldsTo d' = true) :
    (⟨before ++ d :: after⟩ : Filter).deciding? target names = some d := by
  rw [deciding?_eq_foldl]
  exact foldl_closer hd nofun hbefore hafter

end Filter

/-- Of the elements that have a property, if there are any, one has the greatest weight, and is the
last of those that have it. -/
lemma forall_not_or_exists_last_max {α : Type} (p : α → Prop) (weight : α → Nat) (as : List α) :
    (∀ a ∈ as, ¬ p a) ∨
      ∃ before a after, as = before ++ a :: after ∧ p a ∧
        (∀ b ∈ before, p b → weight b ≤ weight a) ∧ ∀ b ∈ after, p b → weight b < weight a := by
  induction as with
  | nil => exact .inl (List.forall_mem_nil _)
  | cons c as ih =>
    obtain hnone | ⟨before, a, after, rfl, ha, hbefore, hafter⟩ := ih
    · by_cases hc : p c
      · exact .inr ⟨[], c, as, rfl, hc, List.forall_mem_nil _,
          fun b hb hpb => absurd hpb (hnone b hb)⟩
      · exact .inl (List.forall_mem_cons.2 ⟨hc, hnone⟩)
    · by_cases hc : p c ∧ weight a < weight c
      · refine .inr ⟨[], c, before ++ a :: after, rfl, hc.1, List.forall_mem_nil _, ?_⟩
        rw [List.forall_mem_append, List.forall_mem_cons]
        exact ⟨fun b hb hpb => (hbefore b hb hpb).trans_lt hc.2, fun _ => hc.2,
          fun b hb hpb => (hafter b hb hpb).trans hc.2⟩
      · refine .inr ⟨c :: before, a, after, rfl, ha, List.forall_mem_cons.2 ⟨fun hpc => ?_, hbefore⟩,
          hafter⟩
        exact not_lt.1 fun hlt => hc ⟨hpc, hlt⟩

/-! ## Level names -/

namespace Level

lemma name_ne_nil (l : Level) : l.name.toList ≠ [] := by
  rcases l with _ | s
  · exact List.cons_ne_nil _ _
  · cases s <;> exact List.cons_ne_nil _ _

/-- The text of a level name begins with a letter. -/
lemma exists_cons_of_isNamedBy {l : Level} {text : String} (h : l.IsNamedBy text) :
    ∃ c cs, text.toList = c :: cs ∧ c.isAlpha = true := by
  cases htext : text.toList with
  | nil =>
    rw [IsNamedBy, htext] at h
    exact absurd h.symm (name_ne_nil l)
  | cons c cs =>
    refine ⟨c, cs, rfl, isAlpha_of_isNamedBy h c ?_⟩
    rw [htext]
    exact List.mem_cons_self

lemma not_isDigit_of_isAlpha {c : Char} (h : c.isAlpha = true) : c.isDigit = false := by
  grind [Char.isAlpha, Char.isUpper, Char.isLower, Char.isDigit]

lemma ofText?_of_isNamedBy {l : Level} {text : String} (h : l.IsNamedBy text) :
    ofText? text = some l := by
  obtain ⟨c, cs, htext, hc⟩ := exists_cons_of_isNamedBy h
  have hnumber : number? text.toList = none := by
    refine Option.eq_none_iff_forall_ne_some.2 fun n hn => ?_
    obtain hdigit | rfl := isDigit_or_eq_of_number? hn c (htext ▸ List.mem_cons_self)
    · rw [not_isDigit_of_isAlpha hc] at hdigit
      cases hdigit
    · cases hc
  have hne : text ≠ "" := by
    rintro rfl
    cases htext
  have hfind : (all.find? fun l => l.name.toList = text.toList.map Char.toLower) = some l := by
    cases hfound : all.find? fun l => l.name.toList = text.toList.map Char.toLower with
    | none => exact absurd (decide_eq_true h.symm) (List.find?_eq_none.1 hfound l (mem_all l))
    | some l' =>
      have hname := List.find?_some hfound
      rw [eq_of_toList_name ((of_decide_eq_true hname).trans h)]
  rw [ofText?, hnumber]
  exact (if_neg hne).trans hfind

end Level

/-! ## Plain settings -/

namespace Settings

/-- Settings in which nothing but the hyphens of a name is read otherwise than it is written. -/
structure IsPlain (s : Settings) : Prop where
  level : ∃ l : Level, l.IsNamedBy s.level
  name_ne_empty : ∀ e ∈ s.components.entries, e.1 ≠ ""
  mem_name : ∀ e ∈ s.components.entries, ∀ c ∈ e.1.toList,
    c = '-' ∨ c = '_' ∨ Text.isAlphanumeric c = true
  component : ∀ e ∈ s.components.entries, ∃ l : Level, l.IsNamedBy e.2

/-- The text of the level that holds for a target: that of the longest component name, as a target,
that the target begins with, where of those that are the same the last one in the order of the names
counts, or that of the level for everything if there is none. -/
inductive Governs (s : Settings) (target : String) : String → Prop
  | component {before : List (String × String)} {name level : String}
      {after : List (String × String)} :
      s.components.entries = before ++ (name, level) :: after →
      (targetName name).toList <+: target.toList →
      (∀ e ∈ before, (targetName e.1).toList <+: target.toList →
        (targetName e.1).length ≤ (targetName name).length) →
      (∀ e ∈ after, (targetName e.1).toList <+: target.toList →
        (targetName e.1).length < (targetName name).length) →
      Governs s target level
  | everything :
      (∀ e ∈ s.components.entries, ¬ (targetName e.1).toList <+: target.toList) →
      Governs s target s.level

lemma exists_governs (s : Settings) (target : String) : ∃ level, s.Governs target level := by
  obtain hnone | ⟨before, ⟨name, level⟩, after, hentries, hprefix, hbefore, hafter⟩ :=
    forall_not_or_exists_last_max (fun e => (targetName e.1).toList <+: target.toList)
      (fun e => (targetName e.1).length) s.components.entries
  · exact ⟨s.level, .everything hnone⟩
  · exact ⟨level, .component hentries hprefix hbefore hafter⟩

/-! ## The filter of plain settings -/

variable {check : ValueCheck} {s : Settings} {e : String × String}

/-- The directive for a target and the text of its level, or for everything. -/
def directiveOf (target : Option String) (text : String) : Directive :=
  ⟨target, none, none, (Level.ofText? text).getD .off⟩

lemma directiveOf_of_isNamedBy {l : Level} {target : Option String} {text : String}
    (h : l.IsNamedBy text) : directiveOf target text = ⟨target, none, none, l⟩ := by
  rw [directiveOf, Level.ofText?_of_isNamedBy h, Option.getD_some]

lemma notMem_of_isNamedBy {l : Level} {text : String} {c : Char} (h : l.IsNamedBy text)
    (hc : Level.mayContain c = false) : c ∉ text.toList :=
  Level.notMem_of_ofText? (by rw [Level.ofText?_of_isNamedBy h]; rfl) hc

lemma mem_targetName (hs : s.IsPlain) (he : e ∈ s.components.entries) :
    ∀ c ∈ (targetName e.1).toList, c = '_' ∨ Text.isAlphanumeric c = true := by
  intro c hc
  rw [targetName, String.toList_ofList, List.mem_map] at hc
  obtain ⟨c', hc', rfl⟩ := hc
  obtain rfl | rfl | halphanumeric := hs.mem_name e he c' hc'
  · exact .inl rfl
  · exact .inl rfl
  · split
    · exact .inl rfl
    · exact .inr halphanumeric

lemma notMem_targetName (hs : s.IsPlain) (he : e ∈ s.components.entries) {c : Char}
    (hne : c ≠ '_') (hc : Text.isAlphanumeric c = false) : c ∉ (targetName e.1).toList := by
  intro hmem
  obtain rfl | htrue := mem_targetName hs he c hmem
  · exact hne rfl
  · rw [hc] at htrue
    cases htrue

lemma any_mayBegin_targetName (hs : s.IsPlain) (he : e ∈ s.components.entries) :
    (targetName e.1).toList.head?.any Directive.mayBegin = true := by
  cases htarget : (targetName e.1).toList with
  | nil =>
    rw [targetName, String.toList_ofList, List.map_eq_nil_iff, String.toList_eq_nil_iff] at htarget
    exact absurd htarget (hs.name_ne_empty e he)
  | cons c cs =>
    rw [List.head?_cons, Option.any_some, Directive.mayBegin]
    obtain rfl | halphanumeric := mem_targetName hs he c (htarget ▸ List.mem_cons_self)
    · rfl
    · simp [halphanumeric]

lemma isBlank_of_isNamedBy {l : Level} {text : String} (h : l.IsNamedBy text) :
    ∀ c ∈ text.toList, Text.isBlank c = false := fun c hc =>
  Level.isBlank_of_mayContain (Level.mayContain_of_isNamedBy h c hc)

/-- The name of a level is read as that level for all targets. -/
lemma ofText_level (hs : s.IsPlain) :
    Directive.ofText check s.level.toList = .ok (directiveOf none s.level) := by
  obtain ⟨l, hl⟩ := hs.level
  obtain ⟨c, cs, htext, hc⟩ := Level.exists_cons_of_isNamedBy hl
  have hbegin : s.level.toList.head?.any Directive.mayBegin = true := by
    have halphanumeric := Text.isAlphanumeric_of_isAlphanum
      (show c.isAlphanum = true by rw [Char.isAlphanum, hc]; rfl)
    rw [htext, List.head?_cons, Option.any_some, Directive.mayBegin]
    simp [halphanumeric]
  rw [directiveOf_of_isNamedBy hl]
  exact Directive.ofText_level (Text.trim_of_forall (isBlank_of_isNamedBy hl)) hbegin
    (notMem_of_isNamedBy hl rfl) (notMem_of_isNamedBy hl rfl)
    (by rw [String.ofList_toList, Level.ofText?_of_isNamedBy hl])

lemma isBlank_of_mem_assignment (hs : s.IsPlain) (he : e ∈ s.components.entries) :
    ∀ c ∈ assignment e, Text.isBlank c = false := by
  obtain ⟨l, hl⟩ := hs.component e he
  rw [assignment, List.forall_mem_append, List.forall_mem_cons]
  refine ⟨fun c hc => ?_, rfl, isBlank_of_isNamedBy hl⟩
  obtain rfl | halphanumeric := mem_targetName hs he c hc
  · rfl
  · exact Text.isBlank_of_isAlphanumeric halphanumeric

/-- A component is read as its level for its name as a target. -/
lemma ofText_assignment (hs : s.IsPlain) (he : e ∈ s.components.entries) :
    Directive.ofText check (assignment e) = .ok (directiveOf (some (targetName e.1)) e.2) := by
  obtain ⟨l, hl⟩ := hs.component e he
  have hne : e.2.toList ≠ [] := by
    obtain ⟨c, cs, htext, -⟩ := Level.exists_cons_of_isNamedBy hl
    rw [htext]
    exact List.cons_ne_nil c cs
  have hlevel : Level.ofText? (String.ofList e.2.toList) = some l := by
    rw [String.ofList_toList, Level.ofText?_of_isNamedBy hl]
  rw [assignment, Directive.ofText_assignment
    (Text.trim_of_forall (isBlank_of_mem_assignment hs he)) (any_mayBegin_targetName hs he)
    (notMem_targetName hs he (by decide) (by decide +kernel))
    (notMem_targetName hs he (by decide) (by decide +kernel)) hne hlevel,
    String.ofList_toList, directiveOf_of_isNamedBy hl]

/-- In plain settings the level for everything and each component are a piece of their own. -/
lemma cutAt_directives_of_isPlain (hs : s.IsPlain) :
    Text.cutAt ',' s.directives.toList =
      s.level.toList :: s.components.entries.map assignment := by
  obtain ⟨l, hl⟩ := hs.level
  have hassignment : ∀ e ∈ s.components.entries, Text.cutAt ',' (assignment e) = [assignment e] := by
    intro e he
    obtain ⟨l, hl⟩ := hs.component e he
    refine Text.cutAt_of_notMem ?_
    rw [assignment, List.mem_append, List.mem_cons]
    rintro (hname | heq | hlevel)
    · exact notMem_targetName hs he (by decide) (by decide +kernel) hname
    · exact absurd heq (by decide)
    · exact notMem_of_isNamedBy hl rfl hlevel
  rw [cutAt_directives, Text.cutAt_of_notMem (notMem_of_isNamedBy hl rfl),
    List.flatMap_congr hassignment, ← List.map_eq_flatMap, List.singleton_append]

/-- Plain settings give a filter that has a directive for everything and one for each component. -/
theorem filter?_of_isPlain (hs : s.IsPlain) :
    s.filter? check = .ok ⟨directiveOf none s.level ::
      s.components.entries.map fun e => directiveOf (some (targetName e.1)) e.2⟩ := by
  obtain ⟨l, hl⟩ := hs.level
  have hnonempty : ∀ piece ∈ s.level.toList :: s.components.entries.map assignment,
      (!piece.isEmpty) = true := by
    obtain ⟨c, cs, htext, -⟩ := Level.exists_cons_of_isNamedBy hl
    rw [List.forall_mem_cons, List.forall_mem_map, htext]
    exact ⟨rfl, fun e _ => by simp [assignment]⟩
  rw [filter?_eq_ok_iff, Level.ofText?_of_isNamedBy hl, Filter.ofText_eq_ok_iff,
    cutAt_directives_of_isPlain hs, List.filter_eq_self.2 hnonempty]
  refine ⟨rfl, .cons (ofText_level hs) ?_⟩
  rw [List.forall₂_map_left_iff, List.forall₂_map_right_iff, List.forall₂_same]
  exact fun e he => ofText_assignment hs he

/-! ## What plain settings let through -/

lemma appliesTo_directiveOf {name text target : String} {names : List String} :
    (directiveOf (some (targetName name)) text).appliesTo target names = true ↔
      (targetName name).toList <+: target.toList := by
  simp [Directive.appliesTo, Directive.asksValue, directiveOf]

/-- Directives without fields yield to those with longer targets, and to those with the same. -/
lemma yieldsTo_directiveOf {name name' : Option String} {text text' : String} :
    (directiveOf name text).yieldsTo (directiveOf name' text') = true ↔
      (directiveOf name text).specificity ≤ (directiveOf name' text').specificity := by
  rw [Directive.yieldsTo, Bool.or_eq_true, Bool.and_eq_true, decide_eq_true_iff,
    decide_eq_true_iff, le_iff_lt_or_eq]
  exact or_congr_right (and_iff_left rfl)

lemma specificity_directiveOf (name text : String) :
    (directiveOf (some (targetName name)) text).specificity = (targetName name).length + 1 :=
  rfl

/-- The directive that decides for a record has the level that holds for its target. -/
lemma deciding?_of_governs {f : Filter} {target text : String} (hs : s.IsPlain)
    (hf : s.filter? check = .ok f) (h : s.Governs target text) (names : List String) :
    ∃ name, f.deciding? target names = some (directiveOf name text) := by
  rw [filter?_of_isPlain hs] at hf
  cases hf
  cases h with
  | component hentries hprefix hbefore hafter =>
    rw [hentries, List.map_append, List.map_cons, ← List.cons_append]
    refine ⟨_, Filter.deciding?_of_closest (appliesTo_directiveOf.2 hprefix) ?_ ?_⟩
    · refine List.forall_mem_cons.2 ⟨fun _ => yieldsTo_directiveOf.2 (Nat.zero_le _), ?_⟩
      refine List.forall_mem_map.2 fun e he happlies => ?_
      rw [yieldsTo_directiveOf, specificity_directiveOf, specificity_directiveOf,
        Nat.add_le_add_iff_right]
      exact hbefore e he (appliesTo_directiveOf.1 happlies)
    · refine List.forall_mem_map.2 fun e he happlies => ?_
      rw [yieldsTo_directiveOf, specificity_directiveOf, specificity_directiveOf,
        Nat.add_le_add_iff_right, Nat.not_le]
      exact hafter e he (appliesTo_directiveOf.1 happlies)
  | everything hnone =>
    refine ⟨none, Filter.deciding?_of_closest rfl (List.forall_mem_nil _) ?_⟩
    refine List.forall_mem_map.2 fun e he happlies => ?_
    exact absurd (appliesTo_directiveOf.1 happlies) (hnone e he)

lemma enabled_of_governs {target text : String} {l : Level} (hs : s.IsPlain)
    (h : s.Governs target text) (hl : l.IsNamedBy text) (names : List String)
    (severity : Severity) :
    (s.filter check).enabled target names severity = true ↔ severity.rank ≤ l.rank := by
  have hf : s.filter? check = _ := filter?_of_isPlain hs
  obtain ⟨name, hdeciding⟩ := deciding?_of_governs hs hf h names
  rw [filter, hf, Filter.enabled, hdeciding, Option.any_some, directiveOf_of_isNamedBy hl,
    Level.allows, decide_eq_true_iff]

lemma enabled_of_filter?_error {err : SettingsError} (h : s.filter? check = .error err)
    (target : String) (names : List String) (severity : Severity) :
    (s.filter check).enabled target names severity = true ↔
      severity.rank ≤ Severity.info.rank := by
  rw [filter, h]
  exact decide_eq_true_iff

lemma exists_isNamedBy_of_governs {target text : String} (hs : s.IsPlain)
    (h : s.Governs target text) : ∃ l : Level, l.IsNamedBy text := by
  cases h with
  | @component before name _ after hentries =>
    exact hs.component (name, text) (hentries ▸ List.mem_append_cons_self)
  | everything => exact hs.level

/-- Plain settings give a filter, and what it lets through is up to the level that holds for the
target of a record.  Settings that give no filter let through what is up to `info`, whatever the
target.  The fields of the record play no part. -/
theorem enabled_iff_rank_le (check : ValueCheck) (s : Settings) :
    (s.IsPlain →
      (∃ f, s.filter? check = .ok f) ∧
      ∀ target : String,
        (∃ (text : String) (level : Level), s.Governs target text ∧ level.IsNamedBy text) ∧
        ∀ (text : String) (level : Level), s.Governs target text → level.IsNamedBy text →
          ∀ names severity,
            (s.filter check).enabled target names severity = true ↔
              severity.rank ≤ level.rank) ∧
    (∀ err, s.filter? check = .error err →
      ∀ target names severity,
        (s.filter check).enabled target names severity = true ↔
          severity.rank ≤ Severity.info.rank) := by
  refine ⟨fun hs => ⟨⟨_, filter?_of_isPlain hs⟩, fun target => ⟨?_, fun _ _ h hl => ?_⟩⟩,
    fun _ h => enabled_of_filter?_error h⟩
  · obtain ⟨text, htext⟩ := exists_governs s target
    obtain ⟨level, hlevel⟩ := exists_isNamedBy_of_governs hs htext
    exact ⟨text, level, htext, hlevel⟩
  · exact enabled_of_governs hs h hl

/-- Settings with components that begin with one another, of which two are the same as targets. -/
def nestedSettings : Settings where
  level := "Info"
  components := .ofList
    [("chainbridge_evm", "TRACE"), ("chainbridge", "WARN"), ("chainbridge-evm", "debug")]
  json := false

/-- Settings with a misspelled level. -/
def misspelledSettings : Settings where
  level := "infoo"
  components := .ofList [("chainbridge-evm", "trace")]
  json := false

lemma entries_nestedSettings : nestedSettings.components.entries =
    [("chainbridge", "WARN"), ("chainbridge-evm", "debug"), ("chainbridge_evm", "TRACE")] := by
  decide +kernel

lemma isPlain_nestedSettings : nestedSettings.IsPlain where
  level := ⟨.upTo .info, rfl⟩
  name_ne_empty := by
    rw [entries_nestedSettings]
    decide
  mem_name := by
    have hname : (nestedSettings.components.entries.all fun e =>
        e.1.toList.all fun c => c = '-' || c = '_' || c.isAlphanum) = true := by
      rw [entries_nestedSettings]
      rfl
    intro e he c hc
    have hc' := List.all_eq_true.1 (List.all_eq_true.1 hname e he) c hc
    simp only [Bool.or_eq_true, decide_eq_true_eq, or_assoc] at hc'
    exact hc'.imp_right (Or.imp_right Text.isAlphanumeric_of_isAlphanum)
  component := by
    rw [entries_nestedSettings]
    simp only [List.forall_mem_cons]
    exact ⟨⟨.upTo .warn, rfl⟩, ⟨.upTo .debug, rfl⟩, ⟨.upTo .trace, rfl⟩, List.forall_mem_nil _⟩

theorem nestedSettings_enabled_iff_rank_le :
    nestedSettings.IsPlain ∧
    (nestedSettings.filter fun _ => none).enabled "chainbridge_evm::decoder" ["message"] .trace =
      true ∧
    (nestedSettings.filter fun _ => none).enabled "chainbridge::codec" ["message", "max"] .info =
      false ∧
    misspelledSettings.filter? (fun _ => none) = .error (.level "infoo") ∧
    (misspelledSettings.filter fun _ => none).enabled "chainbridge_evm::decoder" [] .debug =
      false := by
  have htrace : nestedSettings.Governs "chainbridge_evm::decoder" "TRACE" :=
    @Governs.component _ _ [("chainbridge", "WARN"), ("chainbridge-evm", "debug")]
      "chainbridge_evm" _ [] entries_nestedSettings (by decide +kernel) (by decide +kernel)
      (List.forall_mem_nil _)
  have hwarn : nestedSettings.Governs "chainbridge::codec" "WARN" :=
    @Governs.component _ _ [] "chainbridge" _
      [("chainbridge-evm", "debug"), ("chainbridge_evm", "TRACE")] entries_nestedSettings
      (by decide +kernel) (List.forall_mem_nil _) (by decide +kernel)
  have hfilter := ((enabled_iff_rank_le (fun _ => none) nestedSettings).1 isPlain_nestedSettings).2
  have herror : misspelledSettings.filter? (fun _ => none) = .error (.level "infoo") := rfl
  refine ⟨isPlain_nestedSettings, ?_, ?_, herror, ?_⟩
  · exact ((hfilter _).2 "TRACE" (.upTo .trace) htrace rfl _ .trace).2 (by decide)
  · rw [← Bool.not_eq_true, (hfilter _).2 "WARN" (.upTo .warn) hwarn rfl _ .info]
    decide
  · rw [← Bool.not_eq_true, (enabled_iff_rank_le _ misspelledSettings).2 _ herror]
    decide

end Settings
end RollupBoundary.Logging
