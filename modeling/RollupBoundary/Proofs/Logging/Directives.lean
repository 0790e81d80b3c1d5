import Mathlib
import RollupBoundary.Logging.Filter
import RollupBoundary.Proofs.Sequencing
import RollupBoundary.Proofs.Text.Pieces

/-!
# Settings that are read as they were meant

The level texts of settings are put into one text, and what gives the filter are the pieces that
this text is cut into at its commas.  The pieces are those of the level for everything and those of
each component (`Settings.cutAt_directives`).  Levels are written with letters, digits and plus
signs.  A component whose level has no other characters ends a piece.  The reader of that piece has
then passed an equals sign and is in no bracket, whatever the name of the component is made of
(`Reading.follows_run`), so what it reads as a level is the level of that component
(`Settings.isSome_of_filter?`).

A level with another character in it stands for none, but a comma or a bracket may make its pieces
directives, and then the settings give a filter.  That is all that can go wrong
(`Settings.holdsLevels_iff`).
-/

namespace RollupBoundary.Logging

/-! ## Level texts -/

namespace Level

/-- Whether the text is the name of the level, in any mixture of cases. -/
def IsNamedBy (l : Level) (text : String) : Prop :=
  text.toList.map Char.toLower = l.name.toList

/-- The characters that levels are written with. -/
def mayContain (c : Char) : Bool :=
  c.isAlphanum || c = '+'

lemma mem_all (l : Level) : l ∈ all := by
  rcases l with _ | s
  · decide
  · cases s <;> decide

lemma eq_of_toList_name {l l' : Level} (h : l.name.toList = l'.name.toList) : l = l' := by
  have hall : ∀ l ∈ all, ∀ l' ∈ all, l.name.toList = l'.name.toList → l = l' := by decide +kernel
  exact hall l (mem_all l) l' (mem_all l') h

lemma isAlpha_of_mem_name (l : Level) : ∀ c ∈ l.name.toList, c.isAlpha = true := by
  rw [← List.all_eq_true]
  rcases l with _ | s
  · rfl
  · cases s <;> rfl

lemma isAlpha_of_isNamedBy {l : Level} {text : String} (h : l.IsNamedBy text) :
    ∀ c ∈ text.toList, c.isAlpha = true := by
  intro c hc
  have hlower : c.toLower ∈ l.name.toList := by
    rw [← h]
    exact List.mem_map_of_mem hc
  rw [← Char.isAlpha_toLower_eq_isAlpha]
  exact isAlpha_of_mem_name l _ hlower

lemma mayContain_of_isNamedBy {l : Level} {text : String} (h : l.IsNamedBy text) :
    ∀ c ∈ text.toList, mayContain c = true := by
  intro c hc
  simp [mayContain, Char.isAlphanum, isAlpha_of_isNamedBy h c hc]

lemma isDigit_or_eq_of_number? {text : List Char} {n : Nat} (h : number? text = some n) :
    ∀ c ∈ text, c.isDigit = true ∨ c = '+' := by
  unfold number? at h
  dsimp only at h
  split at h
  next digits =>
    split at h
    · next hdigits =>
      exact List.forall_mem_cons.2 ⟨.inr rfl, fun c hc => .inl (List.all_eq_true.1 hdigits.2 c hc)⟩
    · cases h
  next =>
    split at h
    · next hdigits => exact fun c hc => .inl (List.all_eq_true.1 hdigits.2 c hc)
    · cases h

lemma mayContain_of_number? {text : List Char} {n : Nat} (h : number? text = some n) :
    ∀ c ∈ text, mayContain c = true := by
  intro c hc
  obtain hdigit | rfl := isDigit_or_eq_of_number? h c hc
  · simp [mayContain, Char.isAlphanum, hdigit]
  · rfl

/-- Texts that stand for a level have no other characters in them. -/
lemma mayContain_of_ofText? {text : String} (h : (ofText? text).isSome = true) :
    ∀ c ∈ text.toList, mayContain c = true := by
  obtain ⟨l, hl⟩ := Option.isSome_iff_exists.1 h
  rw [ofText?] at hl
  split at hl
  next n hn => exact mayContain_of_number? hn
  next =>
    split at hl
    · next hempty =>
      subst hempty
      exact List.forall_mem_nil _
    · have hname := List.find?_some hl
      exact mayContain_of_isNamedBy (of_decide_eq_true hname).symm

lemma isBlank_of_mayContain {c : Char} (h : mayContain c = true) : Text.isBlank c = false :=
  Text.isBlank_of_all_blanks rfl h

lemma notMem_of_ofText? {text : String} {c : Char} (h : (ofText? text).isSome = true)
    (hc : mayContain c = false) : c ∉ text.toList := by
  intro hmem
  rw [mayContain_of_ofText? h c hmem] at hc
  cases hc

end Level

/-! ## Reading a directive -/

variable {check : ValueCheck}

/-- What is known of the characters that have been read, by the place where that has led to. -/
def Place.Follows (p : Place) (read : List Char) : Prop :=
  match p with
  | .start => read = []
  | .levelOrTarget => '=' ∉ read
  | .behindBracket => ∃ front, read = front ++ [']']
  | .level since => ∃ front back, read = front ++ '=' :: back ∧ since = front.length + 1
  | .span _ | .field _ | .behindField => True

namespace Reading

variable {text read cs : List Char} {c : Char} {r r' : Reading}

/-- One character more keeps what is known. -/
lemma follows_step (h : r.place.Follows read)
    (hstep : r.step check text read.length c = .ok r') : r'.place.Follows (read ++ [c]) := by
  have hlevel (hc : c = '=') : (Place.level (read.length + 1)).Follows (read ++ [c]) :=
    ⟨read, [], by rw [hc], rfl⟩
  have hbracket (hc : c = ']') : Place.behindBracket.Follows (read ++ [c]) := ⟨read, by rw [hc]⟩
  rw [step] at hstep
  cases hplace : r.place with
  | start =>
    rw [hplace] at h hstep
    dsimp only at hstep
    split_ifs at hstep with hopen hbegin
    · cases hstep
      exact trivial
    · cases hstep
      have hne : c ≠ '=' := by
        rintro rfl
        exact absurd hbegin (by decide +kernel)
      simpa [Place.Follows, show read = [] from h] using hne.symm
  | levelOrTarget =>
    rw [hplace] at h hstep
    dsimp only at hstep
    split_ifs at hstep with hequals hopen
    · cases hstep
      exact hlevel hequals
    · cases hstep
      exact trivial
    · cases hstep
      have hread : '=' ∉ read := h
      simpa [hplace, Place.Follows, hread] using Ne.symm hequals
  | span since =>
    rw [hplace] at hstep
    dsimp only at hstep
    split at hstep
    · next hclose =>
      cases hstep
      exact hbracket hclose
    · split at hstep
      · cases hstep
        exact trivial
      · cases hstep
        rw [hplace]
        exact trivial
  | field since =>
    rw [hplace] at hstep
    dsimp only at hstep
    split_ifs at hstep with hbrace hempty
    · cases hfield : FieldMatch.ofText check ((text.take read.length).drop since) with
      | error fault =>
        rw [hfield] at hstep
        cases hstep
      | ok f =>
        rw [hfield] at hstep
        cases hstep
        exact trivial
    · cases hstep
      rw [hplace]
      exact trivial
  | behindField =>
    rw [hplace] at hstep
    dsimp only at hstep
    split_ifs at hstep with hclose
    cases hstep
    exact hbracket hclose
  | behindBracket =>
    rw [hplace] at hstep
    dsimp only at hstep
    split_ifs at hstep with hequals
    cases hstep
    exact hlevel hequals
  | level since =>
    rw [hplace] at h hstep
    cases hstep
    obtain ⟨front, back, rfl, hsince⟩ := h
    rw [hplace]
    exact ⟨front, back ++ [c], by rw [List.append_assoc, List.cons_append], hsince⟩

lemma follows_run (h : r.place.Follows read)
    (hrun : r.run check text read.length cs = .ok r') : r'.place.Follows (read ++ cs) := by
  induction cs generalizing r read with
  | nil =>
    cases hrun
    rwa [List.append_nil]
  | cons c cs ih =>
    rw [run] at hrun
    cases hstep : r.step check text read.length c with
    | error fault =>
      rw [hstep] at hrun
      cases hrun
    | ok next =>
      rw [hstep] at hrun
      rw [List.append_cons]
      exact ih (follows_step h hstep) (by rwa [List.length_append])

lemma follows_of_run_initial (hrun : initial.run check text 0 cs = .ok r) : r.place.Follows cs := by
  have hstart : initial.place.Follows [] := rfl
  exact follows_run hstart hrun

/-- What is read in the part that is a level or a target stays in it up to an equals sign or a
bracket. -/
lemma run_append_of_levelOrTarget (hr : r.place = .levelOrTarget) (hequals : '=' ∉ read)
    (hopen : '[' ∉ read) (i : Nat) :
    r.run check text i (read ++ cs) = r.run check text (i + read.length) cs := by
  induction read generalizing i with
  | nil => rfl
  | cons c read ih =>
    rw [List.mem_cons, not_or] at hequals hopen
    have hstep : r.step check text i c = .ok r := by
      rw [step, hr]
      exact (if_neg (Ne.symm hequals.1)).trans (if_neg (Ne.symm hopen.1))
    rw [List.cons_append, run, hstep]
    dsimp only
    rw [ih hequals.2 hopen.2, List.length_cons, Nat.add_right_comm, Nat.add_assoc]

/-- The level reaches up to the end. -/
lemma run_of_level {since : Nat} (hr : r.place = .level since) (i : Nat) (cs : List Char) :
    r.run check text i cs = .ok r := by
  induction cs generalizing i with
  | nil => rfl
  | cons c cs ih =>
    have hstep : r.step check text i c = .ok r := by rw [step, hr]
    rw [run, hstep]
    exact ih (i + 1)

lemma finish_of_level {since : Nat} (hr : r.place = .level since) :
    r.finish text = r.atLevel (text.drop since) := by
  rw [finish, hr]

lemma isSome_of_atLevel {levelText : List Char} {d : Directive} (h : r.atLevel levelText = .ok d) :
    (Level.ofText? (String.ofList levelText)).isSome = true := by
  rw [atLevel] at h
  split at h
  · next hempty =>
    rw [hempty]
    rfl
  · cases hlevel : Level.ofText? (String.ofList levelText) with
    | none =>
      rw [hlevel] at h
      cases h
    | some level => rfl

/-- The places where a directive may end. -/
lemma place_of_finish {d : Directive} (h : r.finish text = .ok d) :
    r.place = .levelOrTarget ∨ r.place = .behindBracket ∨
      ∃ since, r.place = .level since ∧
        (Level.ofText? (String.ofList (text.drop since))).isSome = true := by
  cases hplace : r.place with
  | levelOrTarget => exact .inl rfl
  | behindBracket => exact .inr (.inl rfl)
  | level since =>
    rw [finish_of_level hplace] at h
    exact .inr (.inr ⟨since, rfl, isSome_of_atLevel h⟩)
  | start | span | field | behindField =>
    rw [finish, hplace] at h
    cases h

end Reading

/-! ## One directive -/

namespace Directive

variable {text : List Char} {d : Directive}

lemma ofText_eq_ok_iff :
    ofText check text = .ok d ↔
      ∃ r, Reading.initial.run check text 0 (Text.trim text) = .ok r ∧ r.finish text = .ok d :=
  bind_eq_ok_iff

/-- The characters in front of the first equals sign or bracket are read as one part. -/
lemma run_initial_append {front back : List Char} (hbegin : front.head?.any mayBegin = true)
    (hequals : '=' ∉ front) (hopen : '[' ∉ front) :
    Reading.initial.run check text 0 (front ++ back) =
      (⟨.levelOrTarget, none, none, none⟩ : Reading).run check text front.length back := by
  cases front with
  | nil => cases hbegin
  | cons c front =>
    rw [List.mem_cons, not_or] at hequals hopen
    have hstep : Reading.initial.step check text 0 c = .ok ⟨.levelOrTarget, none, none, none⟩ :=
      (if_neg (Ne.symm hopen.1)).trans (if_pos hbegin)
    rw [List.cons_append, Reading.run, hstep]
    dsimp only
    rw [Reading.run_append_of_levelOrTarget rfl hequals.2 hopen.2, List.length_cons, Nat.add_comm]

/-- A text without equals signs and brackets is read as a level for all targets, if it is one. -/
lemma ofText_level {level : Level} (htrim : Text.trim text = text)
    (hbegin : text.head?.any mayBegin = true) (hequals : '=' ∉ text) (hopen : '[' ∉ text)
    (hlevel : Level.ofText? (String.ofList text) = some level) :
    ofText check text = .ok ⟨none, none, none, level⟩ := by
  refine ofText_eq_ok_iff.2 ⟨⟨.levelOrTarget, none, none, none⟩, ?_, ?_⟩
  · have hrun : Reading.initial.run check text 0 (text ++ []) = _ :=
      run_initial_append hbegin hequals hopen
    rw [List.append_nil] at hrun
    rw [htrim, hrun, Reading.run]
  · rw [Reading.finish, hlevel]

/-- A text with an equals sign is read as a target and its level. -/
lemma ofText_assignment {target levelText : List Char} {level : Level}
    (htrim : Text.trim (target ++ '=' :: levelText) = target ++ '=' :: levelText)
    (hbegin : target.head?.any mayBegin = true) (hequals : '=' ∉ target) (hopen : '[' ∉ target)
    (hne : levelText ≠ []) (hlevel : Level.ofText? (String.ofList levelText) = some level) :
    ofText check (target ++ '=' :: levelText) =
      .ok ⟨some (String.ofList target), none, none, level⟩ := by
  refine ofText_eq_ok_iff.2 ⟨⟨.level (target.length + 1), some (String.ofList target), none, none⟩,
    ?_, ?_⟩
  · have htarget : between (target ++ '=' :: levelText) 0 target.length = String.ofList target := by
      rw [between, List.take_left, List.drop_zero]
    rw [htrim, run_initial_append hbegin hequals hopen, ← htarget]
    exact Reading.run_of_level (r := ⟨.level (target.length + 1), _, none, none⟩) rfl _ _
  · have hdrop : (target ++ '=' :: levelText).drop (target.length + 1) = levelText := by
      rw [List.append_cons]
      exact List.drop_left' (by rw [List.length_append, List.length_singleton])
    rw [Reading.finish_of_level rfl, hdrop, Reading.atLevel, if_neg hne, hlevel]

/-- With blanks in front, what is taken as the level has the equals sign in it. -/
lemma eq_nil_of_notMem_drop {blanks target rest : List Char}
    (h : '=' ∉ (blanks ++ (target ++ '=' :: rest)).drop (target.length + 1)) : blanks = [] := by
  cases blanks with
  | nil => rfl
  | cons blank blanks =>
    rw [List.cons_append, List.drop_succ_cons, ← List.append_assoc,
      List.drop_append_of_le_length (by rw [List.length_append]; exact Nat.le_add_left _ _)] at h
    exact absurd (List.mem_append_right _ List.mem_cons_self) h

/-- What stands behind the last equals sign of a directive is a level text, if it is written with
characters that levels are written with.

It is not inside brackets, as these would have to be closed behind it, and what is read as the level
of the directive stands behind an equals sign and has none in it. -/
lemma isSome_of_ofText {front levelText : List Char}
    (hplain : ∀ c ∈ levelText, Level.mayContain c = true)
    (h : ofText check (front ++ '=' :: levelText) = .ok d) :
    (Level.ofText? (String.ofList levelText)).isSome = true := by
  obtain rfl | ⟨levelFront, c, rfl⟩ := levelText.eq_nil_or_concat'
  · rfl
  have hc : Level.mayContain c = true := hplain c (by simp)
  obtain ⟨r, hrun, hfinish⟩ := ofText_eq_ok_iff.1 h
  obtain ⟨blanks, body, htext, htrim, hblanks⟩ :=
    Text.exists_eq_append_trim (front ++ '=' :: levelFront) (Level.isBlank_of_mayContain hc)
  rw [List.append_assoc, List.cons_append] at htext htrim
  rw [htrim] at hrun
  have hfollows := Reading.follows_of_run_initial hrun
  obtain hplace | hplace | ⟨since, hplace, hsome⟩ := Reading.place_of_finish hfinish
  · have hequals : '=' ∈ blanks ++ (body ++ [c]) := by
      rw [← htext]
      exact List.mem_append_right _ List.mem_cons_self
    obtain hblank | hbody := List.mem_append.1 hequals
    · exact absurd (hblanks _ hblank) (by decide)
    · rw [hplace] at hfollows
      exact absurd hbody hfollows
  · rw [hplace] at hfollows
    obtain ⟨before, hbracket⟩ := hfollows
    obtain rfl : c = ']' := by simpa using congrArg List.getLast? hbracket
    cases hc
  · rw [hplace] at hfollows
    obtain ⟨target, rest, hbody, rfl⟩ := hfollows
    have hnone := Level.notMem_of_ofText? hsome (rfl : Level.mayContain '=' = false)
    rw [String.toList_ofList, htext, hbody] at hnone
    obtain rfl := eq_nil_of_notMem_drop hnone
    rw [List.nil_append, List.append_cons, List.drop_left' (by simp)] at hnone
    rw [htext, hbody, List.nil_append, List.append_cons, List.drop_left' (by simp)] at hsome
    rw [hbody, List.nil_append] at htext
    have hlevel : '=' ∉ levelFront ++ [c] := fun hmem => nomatch hplain _ hmem
    rwa [Text.eq_of_append_cons_eq hlevel hnone htext]

end Directive

/-! ## All directives -/

lemma Filter.ofText_eq_ok_iff {text : String} {f : Filter} :
    Filter.ofText check text = .ok f ↔
      List.Forall₂ (fun piece d => Directive.ofText check piece = .ok d)
        ((Text.cutAt ',' text.toList).filter fun piece => !piece.isEmpty) f.directives := by
  rw [Filter.ofText, bind_eq_ok_iff]
  simp only [mapM_eq_ok_iff]
  constructor
  · rintro ⟨ds, hds, h⟩
    cases h
    exact hds
  · exact fun h => ⟨f.directives, h, rfl⟩

namespace Settings

variable {s : Settings} {f : Filter} {e : String × String}

/-- The directive for a component. -/
def assignment (e : String × String) : List Char :=
  (targetName e.1).toList ++ '=' :: e.2.toList

lemma toList_directives (s : Settings) :
    s.directives.toList =
      s.level.toList ++ s.components.entries.flatMap fun e => ',' :: assignment e := by
  rw [directives, String.toList_append, String.toList_join, List.flatMap_map]
  refine congrArg (s.level.toList ++ ·) (List.flatMap_congr fun e _ => ?_)
  simp [assignment]

/-- The pieces of the directives are those of the level for everything and those of each
component. -/
lemma cutAt_directives (s : Settings) :
    Text.cutAt ',' s.directives.toList =
      Text.cutAt ',' s.level.toList ++
        s.components.entries.flatMap fun e => Text.cutAt ',' (assignment e) := by
  rw [toList_directives, Text.cutAt_append_flatMap]

lemma filter?_eq_ok_iff :
    s.filter? check = .ok f ↔
      (Level.ofText? s.level).isSome = true ∧ Filter.ofText check s.directives = .ok f := by
  rw [filter?]
  cases Level.ofText? s.level with
  | none => exact iff_of_false nofun nofun
  | some level =>
    cases Filter.ofText check s.directives with
    | error fault => exact iff_of_false nofun nofun
    | ok g => simp

/-- In settings that give a filter, a level that is written with characters of levels stands for a
level. -/
lemma isSome_of_filter? (h : s.filter? check = .ok f) (he : e ∈ s.components.entries)
    (hplain : ∀ c ∈ e.2.toList, Level.mayContain c = true) :
    (Level.ofText? e.2).isSome = true := by
  have hall := Filter.ofText_eq_ok_iff.1 (filter?_eq_ok_iff.1 h).2
  have hmark : ',' ∉ '=' :: e.2.toList :=
    List.not_mem_cons_of_ne_of_not_mem (by decide) fun hmem => nomatch hplain _ hmem
  obtain ⟨front, hpiece⟩ := Text.exists_mem_cutAt_append (targetName e.1).toList hmark
  have hmem : front ++ '=' :: e.2.toList ∈
      (Text.cutAt ',' s.directives.toList).filter fun piece => !piece.isEmpty := by
    rw [cutAt_directives, List.mem_filter]
    exact ⟨List.mem_append_right _ (List.mem_flatMap.2 ⟨e, he, hpiece⟩), by simp⟩
  obtain ⟨i, hi⟩ := List.mem_iff_get.1 hmem
  have hread := hall.get i.2 (hall.length_eq ▸ i.2)
  rw [hi] at hread
  have hlevel := Directive.isSome_of_ofText hplain hread
  rwa [String.ofList_toList] at hlevel

/-- The rule that settings give a filter only if all of their level texts stand for levels. -/
def HoldsLevels (check : ValueCheck) (s : Settings) : Prop :=
  (∃ f, s.filter? check = .ok f) →
    (Level.ofText? s.level).isSome = true ∧
      ∀ e ∈ s.components.entries, (Level.ofText? e.2).isSome = true

/-- What keeps settings from giving a filter, and when that amounts to the rule.

A level for everything that stands for none is always rejected, and so is the level of a component
that stands for none, as long as it is written with characters that levels have.  The rule therefore
holds of settings exactly if they are not accepted with any other character in a component's
level. -/
theorem holdsLevels_iff (check : ValueCheck) (s : Settings) :
    (Level.ofText? s.level = none → s.filter? check = .error (.level s.level)) ∧
    (∀ e ∈ s.components.entries, (∀ c ∈ e.2.toList, Level.mayContain c = true) →
      Level.ofText? e.2 = none → (Level.ofText? s.level).isSome = true →
      ∃ fault, s.filter? check = .error (.directives s.directives fault)) ∧
    (s.HoldsLevels check ↔
      ((∃ f, s.filter? check = .ok f) →
        ∀ e ∈ s.components.entries, ∀ c ∈ e.2.toList, Level.mayContain c = true)) := by
  refine ⟨fun h => by rw [filter?, h], fun e he hplain hnone hlevel => ?_, fun hrule hf e he => ?_,
    fun hplain hf => ?_⟩
  · cases hfilter : s.filter? check with
    | ok f =>
      have hsome := isSome_of_filter? hfilter he hplain
      rw [hnone] at hsome
      cases hsome
    | error err =>
      obtain ⟨level, hlevel⟩ := Option.isSome_iff_exists.1 hlevel
      rw [filter?, hlevel] at hfilter
      cases hread : Filter.ofText check s.directives with
      | ok f =>
        rw [hread] at hfilter
        cases hfilter
      | error fault =>
        rw [hread] at hfilter
        cases hfilter
        exact ⟨fault, rfl⟩
  · exact Level.mayContain_of_ofText? ((hrule hf).2 e he)
  · obtain ⟨f, hfilter⟩ := hf
    exact ⟨(filter?_eq_ok_iff.1 hfilter).1,
      fun e he => isSome_of_filter? hfilter he (hplain ⟨f, hfilter⟩ e he)⟩

/-- Settings with a level that is followed by another one. -/
def straySettings : Settings where
  level := "info"
  components := .ofList [("chainbridge-evm", "debug,trace")]
  json := false

theorem straySettings_not_holdsLevels :
    straySettings.filter? (fun _ => none) = .ok ⟨[⟨none, none, none, .upTo .info⟩,
      ⟨some "chainbridge_evm", none, none, .upTo .debug⟩, ⟨none, none, none, .upTo .trace⟩]⟩ ∧
    ¬ straySettings.HoldsLevels fun _ => none := by
  have hfilter : straySettings.filter? (fun _ => none) = .ok ⟨[⟨none, none, none, .upTo .info⟩,
      ⟨some "chainbridge_evm", none, none, .upTo .debug⟩, ⟨none, none, none, .upTo .trace⟩]⟩ := by
    decide +kernel
  refine ⟨hfilter, fun hrule => ?_⟩
  have hlevel := (hrule ⟨_, hfilter⟩).2 ("chainbridge-evm", "debug,trace") (by decide +kernel)
  exact absurd hlevel (by decide +kernel)

end Settings
end RollupBoundary.Logging
