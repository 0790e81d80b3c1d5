import Mathlib
import RollupBoundary.Json.Reader
import RollupBoundary.Proofs.Json.Token

/-!
# A value is read back from its document

The document of a value spells its tokens (`spells_tokens`), and the reader of tokens makes the value
of them (`foldlM_tokens`).  Both go along the value, with one statement for values, one for the items
of an array and one for the members of an object.

The first says what may come behind the value, as a number would go on with digits there; the second
says what is open around it, as the reader keeps the containers that are still open on a stack.  So
`parse_render` holds for every value at any depth, and `parse_of_spells` for every other document
with the same tokens as well.
-/

namespace RollupBoundary.Json

/-! ## Documents spell the tokens of their values -/

lemma endsNumber_cons {c : Char} (hc : continuesNumber c = false) (s : List Char) :
    EndsNumber (c :: s) :=
  avoids_cons_iff.2 hc

mutual

/-- The characters of a value spell its tokens, in front of anything that does not go on with a
number. -/
theorem spells_tokens : ∀ (j : Json) {ts : List Token} {s : List Char}, Spells ts s →
    EndsNumber s → Spells (j.tokens ++ ts) (j.tokens.flatMap Token.write ++ s)
  | .null, _, _, h, _ => .token .null nofun h
  | .bool b, _, _, h, _ => by simpa [tokens] using h.token (.bool b) nofun
  | .number n, _, _, h, hs => by simpa [tokens] using h.token (.number n) fun _ => hs
  | .string t, _, _, h, _ => by simpa [tokens] using h.token (.string t) nofun
  | .array items, _, s, h, _ => by
    have hclose := h.token .closeArray nofun
    have hitems := spells_itemTokens items hclose (endsNumber_cons (by decide) s)
    simpa [tokens] using hitems.token .openArray nofun
  | .object members, _, s, h, _ => by
    have hclose := h.token .closeObject nofun
    have hmembers := spells_memberTokens members hclose (endsNumber_cons (by decide) s)
    simpa [tokens] using hmembers.token .openObject nofun

theorem spells_itemTokens : ∀ (items : List Json) {ts : List Token} {s : List Char}, Spells ts s →
    EndsNumber s → Spells (itemTokens items ++ ts) ((itemTokens items).flatMap Token.write ++ s)
  | [], _, _, h, _ => h
  | [item], _, _, h, hs => spells_tokens item h hs
  | item :: next :: items, _, s, h, hs => by
    have hcomma := (spells_itemTokens (next :: items) h hs).token .comma nofun
    have hitem := spells_tokens item hcomma (endsNumber_cons (by decide) _)
    simpa [itemTokens] using hitem

theorem spells_memberTokens : ∀ (members : List (JsonText × Json)) {ts : List Token}
    {s : List Char}, Spells ts s → EndsNumber s →
      Spells (memberTokens members ++ ts) ((memberTokens members).flatMap Token.write ++ s)
  | [], _, _, h, _ => h
  | [(key, value)], _, _, h, hs => by
    have hcolon := (spells_tokens value h hs).token .colon nofun
    simpa [memberTokens] using hcolon.token (.string key) nofun
  | (key, value) :: next :: members, _, s, h, hs => by
    have hcomma := (spells_memberTokens (next :: members) h hs).token .comma nofun
    have hcolon := (spells_tokens value hcomma (endsNumber_cons (by decide) _)).token .colon nofun
    simpa [memberTokens] using hcolon.token (.string key) nofun

end

/-! ## Reading the tokens of a value -/

/-- Where the innermost array may end at once, a value is read as at any other place for one. -/
lemma step_firstItem {t : Token} (ht : t ≠ .closeArray) (stack : List Frame) :
    State.step ⟨stack, .firstItem⟩ t = State.step ⟨stack, .value⟩ t := by
  simp only [State.step, if_neg ht]

/-- Where the innermost object may end at once, a key is read as at any other place for one. -/
lemma step_firstKey (key : JsonText) (stack : List Frame) :
    State.step ⟨stack, .firstKey⟩ (.string key) = State.step ⟨stack, .nextKey⟩ (.string key) :=
  rfl

lemma exists_tokens_eq_cons (j : Json) : ∃ t ts, j.tokens = t :: ts ∧ t ≠ .closeArray := by
  cases j with
  | null => exact ⟨.null, [], rfl, nofun⟩
  | bool b => exact ⟨.bool b, [], rfl, nofun⟩
  | number n => exact ⟨.number n, [], rfl, nofun⟩
  | string s => exact ⟨.string s, [], rfl, nofun⟩
  | array items => exact ⟨.openArray, itemTokens items ++ [.closeArray], rfl, nofun⟩
  | object members => exact ⟨.openObject, memberTokens members ++ [.closeObject], rfl, nofun⟩

lemma exists_itemTokens_eq_cons {items : List Json} (h : items ≠ []) :
    ∃ t ts, itemTokens items = t :: ts ∧ t ≠ .closeArray := by
  match items, h with
  | [item], _ => exact exists_tokens_eq_cons item
  | item :: next :: items, _ =>
    obtain ⟨t, ts, htokens, ht⟩ := exists_tokens_eq_cons item
    exact ⟨t, ts ++ .comma :: itemTokens (next :: items), by simp [itemTokens, htokens], ht⟩

lemma exists_memberTokens_eq_cons {members : List (JsonText × Json)} (h : members ≠ []) :
    ∃ key ts, memberTokens members = .string key :: ts := by
  match members, h with
  | [(key, value)], _ => exact ⟨key, _, rfl⟩
  | (key, value) :: next :: members, _ =>
    exact ⟨key, .colon :: value.tokens ++ .comma :: memberTokens (next :: members),
      by simp [memberTokens]⟩

mutual

/-- The tokens of a value make it complete, inside whatever containers are open. -/
theorem foldlM_tokens : ∀ (j : Json) (stack : List Frame),
    j.tokens.foldlM State.step ⟨stack, .value⟩ = State.complete j stack
  | .null, stack => by simp [tokens, State.step, State.takeValue]
  | .bool b, stack => by simp [tokens, State.step, State.takeValue]
  | .number n, stack => by simp [tokens, State.step, State.takeValue]
  | .string s, stack => by simp [tokens, State.step, State.takeValue]
  | .array items, stack => by
    by_cases hnil : items = []
    · simp [tokens, hnil, itemTokens, State.step, State.takeValue, State.close]
    · have hitems := foldlM_itemTokens items hnil [] stack
      obtain ⟨t, ts, htokens, ht⟩ := exists_itemTokens_eq_cons hnil
      rw [htokens, List.foldlM_cons, ← step_firstItem ht, ← List.foldlM_cons, ← htokens] at hitems
      simp [tokens, State.step, State.takeValue, hitems, State.close]
  | .object members, stack => by
    by_cases hnil : members = []
    · simp [tokens, hnil, memberTokens, State.step, State.takeValue, State.close]
    · have hmembers := foldlM_memberTokens members hnil [] stack
      obtain ⟨key, ts, htokens⟩ := exists_memberTokens_eq_cons hnil
      rw [htokens, List.foldlM_cons, ← step_firstKey, ← List.foldlM_cons, ← htokens] at hmembers
      simp [tokens, State.step, State.takeValue, hmembers, State.close]

/-- The items of an array come behind those that it holds already. -/
theorem foldlM_itemTokens : ∀ (items : List Json), items ≠ [] →
    ∀ (done : List Json) (stack : List Frame),
      (itemTokens items).foldlM State.step ⟨.array done :: stack, .value⟩ =
        some ⟨.array (items.reverse ++ done) :: stack, .separator⟩
  | [item], _, done, stack => foldlM_tokens item (.array done :: stack)
  | item :: next :: items, _, done, stack => by
    have hitems := foldlM_itemTokens (next :: items) nofun (item :: done) stack
    simp [itemTokens, List.foldlM_append, foldlM_tokens item, State.complete, State.step,
      State.next, hitems]

/-- The members of an object come behind those that it holds already. -/
theorem foldlM_memberTokens : ∀ (members : List (JsonText × Json)), members ≠ [] →
    ∀ (done : List (JsonText × Json)) (stack : List Frame),
      (memberTokens members).foldlM State.step ⟨.object done :: stack, .nextKey⟩ =
        some ⟨.object (members.reverse ++ done) :: stack, .separator⟩
  | [(key, value)], _, done, stack => by
    simp [memberTokens, foldlM_tokens value, State.complete, State.step, State.takeKey]
  | (key, value) :: next :: members, _, done, stack => by
    have hmembers := foldlM_memberTokens (next :: members) nofun ((key, value) :: done) stack
    simp [memberTokens, List.foldlM_append, foldlM_tokens value, State.complete, State.step,
      State.takeKey, State.next, hmembers]

end

/-! ## Documents -/

lemma ofTokens?_tokens (j : Json) : ofTokens? j.tokens = some j := by
  rw [ofTokens?, State.start, foldlM_tokens]
  rfl

/-- A text that spells the tokens of a value is a document of the value, with blanks wherever they
may stand. -/
theorem parse_of_spells {j : Json} {text : String} (h : Spells j.tokens text.toList) :
    parse text = some j := by
  rw [parse, lex_of_spells h, Option.bind_some, ofTokens?_tokens]

lemma spells_render (j : Json) : Spells j.tokens j.render.toList := by
  have hspells := spells_tokens j .nil (avoids_nil _)
  rw [List.append_nil, List.append_nil] at hspells
  rwa [render, String.toList_ofList]

/-- Every value is read back from the document that is written for it: numbers to the digit, texts
to the character, members in their order and with their repetitions, to any depth. -/
theorem parse_render (j : Json) : parse j.render = some j :=
  parse_of_spells (spells_render j)

/-! ## Lists of parts -/

/-- A list is read if each item is. -/
lemma mapM_eq_some_iff {α β : Type} {f : α → Option β} {items : List α} {values : List β} :
    items.mapM f = some values ↔ List.Forall₂ (fun a b => f a = some b) items values := by
  induction items generalizing values with
  | nil =>
    rw [List.mapM_nil, List.forall₂_nil_left_iff]
    exact Option.some_inj.trans eq_comm
  | cons item items ih =>
    rw [List.mapM_cons, List.forall₂_cons_left_iff]
    simp only [Option.bind_eq_bind, Option.bind_eq_some_iff, Option.pure_def, Option.some.injEq, ih]
    constructor
    · rintro ⟨value, hvalue, rest, hrest, rfl⟩
      exact ⟨value, rest, hvalue, hrest, rfl⟩
    · rintro ⟨value, rest, hvalue, hrest, rfl⟩
      exact ⟨value, hvalue, rest, hrest, rfl⟩

/-- Items that are read back one by one are read back as a list. -/
lemma mapM_map_eq_some {α β γ : Type} {write : α → β} {read : β → Option γ} {value : α → γ}
    {items : List α} (h : ∀ item ∈ items, read (write item) = some (value item)) :
    (items.map write).mapM read = some (items.map value) := by
  rw [mapM_eq_some_iff, List.forall₂_map_left_iff, List.forall₂_map_right_iff, List.forall₂_same]
  exact h

end RollupBoundary.Json
