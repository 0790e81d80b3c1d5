import Mathlib
import RollupBoundary.Proofs.Json.Number
import RollupBoundary.Proofs.Text.Hex

/-!
# Texts that spell tokens

`Spells` says when a text spells a list of tokens: it has their characters one behind the other, with
blanks anywhere between them.  Such a text is cut into just these tokens (`lex_of_spells`), and that
rests on one token being read back from its characters (`token?_write`).

Strings are where the written form and the text differ.  Each character is written as a piece that
is read back by itself (`Reads`, `exists_reads_escape`): as it stands, by a short escape, or as the
unit of its number.  As a unit only a control character is written, which is no half of a surrogate
pair, so no unit ever swallows the next one.
-/

namespace RollupBoundary.Json

/-! ## Characters of a string -/

/-- A control character is written as the unit of its number. -/
lemma unit?_control {n : Nat} (h : n < 256) :
    unit? '0' '0' (Hex.digit (n / 16)) (Hex.digit (n % 16)) = some n := by
  have hzero : Hex.value? '0' = some 0 := by decide
  have hvalue : 4096 * 0 + 256 * 0 + 16 * (n / 16) + n % 16 = n := by omega
  rw [unit?, hzero, Hex.value?_digit (by omega), Hex.value?_digit (by omega)]
  simp only [Option.bind_eq_bind, Option.bind_some, Option.pure_def, hvalue]

/-- A unit that is no half of a surrogate pair stands for a character of its own, whatever comes
behind it. -/
lemma join_unit_cons {n : Nat} (h : n < 0xD800) (ps : List Piece) :
    Piece.join (.unit n :: ps) = (Piece.join ps).map (Char.ofNat n :: ·) := by
  have hhigh : isHighHalf n = false := by simp [isHighHalf, h]
  have hlow : isLowHalf n = false := by simp [isLowHalf]; omega
  cases ps with
  | nil => simp [Piece.join, hhigh, hlow]
  | cons p ps =>
    cases p with
    | char c => simp [Piece.join, hhigh, hlow]
    | unit m => simp [Piece.join, hhigh, hlow]

/-- That a piece is read where `cs` stands, and stands for `c`. -/
def Reads (cs : List Char) (c : Char) (p : Piece) : Prop :=
  (∀ rest, pieces? (cs ++ rest) = (pieces? rest).map fun r => (p :: r.1, r.2)) ∧
    ∀ ps, Piece.join (p :: ps) = (Piece.join ps).map (c :: ·)

lemma reads_shortEscape {e c : Char} (h : shortEscape? e = some c) :
    Reads ['\\', e] c (.char c) := by
  refine ⟨fun rest => ?_, fun ps => rfl⟩
  rw [List.cons_append, List.singleton_append, pieces?, h]
  · cases pieces? rest <;> rfl
  · rintro _ _ _ _ _ rfl
    cases h

lemma reads_plain {c : Char} (hquote : c ≠ '"') (hslash : c ≠ '\\') (hcontrol : ¬ c < ' ') :
    Reads [c] c (.char c) := by
  refine ⟨fun rest => ?_, fun ps => rfl⟩
  rw [List.singleton_append, pieces?, if_neg hcontrol]
  · cases pieces? rest <;> rfl
  · exact hquote
  · exact fun _ _ _ _ _ h => absurd h hslash
  · exact fun _ _ h => absurd h hslash

lemma reads_control {c : Char} (hcontrol : c < ' ') :
    Reads ['\\', 'u', '0', '0', Hex.digit (c.toNat / 16), Hex.digit (c.toNat % 16)] c
      (.unit c.toNat) := by
  have hlt : c.toNat < 32 := Char.lt_def.1 hcontrol
  refine ⟨fun rest => ?_, fun ps => ?_⟩
  · simp only [List.cons_append, List.nil_append]
    rw [pieces?, unit?_control (by omega)]
    cases pieces? rest <;> rfl
  · rw [join_unit_cons (by omega), Char.ofNat_toNat]

/-- Each character is written as one piece, which stands for it. -/
lemma exists_reads_escape (c : Char) : ∃ p, Reads (escape c) c p := by
  by_cases hshort : c ∈ ['"', '\\', '\x08', '\x0c', '\n', '\r', '\t']
  · simp only [List.mem_cons, List.not_mem_nil, or_false] at hshort
    obtain rfl | rfl | rfl | rfl | rfl | rfl | rfl := hshort <;>
      exact ⟨_, reads_shortEscape rfl⟩
  · simp only [List.mem_cons, List.not_mem_nil, or_false, not_or] at hshort
    obtain ⟨hquote, hslash, h₁, h₂, h₃, h₄, h₅⟩ := hshort
    rw [escape, if_neg hquote, if_neg hslash, if_neg h₁, if_neg h₂, if_neg h₃, if_neg h₄, if_neg h₅]
    split
    · next hcontrol => exact ⟨_, reads_control hcontrol⟩
    · next hcontrol => exact ⟨_, reads_plain hquote hslash hcontrol⟩

/-- A literal is read as pieces that stand for its text. -/
lemma exists_pieces (cs rest : List Char) :
    ∃ ps, pieces? (cs.flatMap escape ++ '"' :: rest) = some (ps, rest) ∧
      Piece.join ps = some cs := by
  induction cs with
  | nil => exact ⟨[], rfl, rfl⟩
  | cons c cs ih =>
    obtain ⟨ps, hread, hjoin⟩ := ih
    obtain ⟨p, hp, hstands⟩ := exists_reads_escape c
    refine ⟨p :: ps, ?_, ?_⟩
    · rw [List.flatMap_cons, List.append_assoc, hp, hread]
      rfl
    · rw [hstands, hjoin]
      rfl

/-! ## Tokens -/

/-- That a token ends where the next character says so, and not by itself. -/
def Token.isNumber : Token → Bool
  | .number _ => true
  | _ => false

lemma token?_writeText (s : JsonText) (rest : List Char) :
    token? (writeText s ++ rest) = some (.string s, rest) := by
  cases s with
  | none => rfl
  | some s =>
    obtain ⟨ps, hread, hjoin⟩ := exists_pieces s.toList rest
    rw [writeText, List.cons_append, List.cons_append, List.append_assoc, List.singleton_append]
    simp only [token?, hread, Option.map_some, textOf, hjoin, String.ofList_toList]

lemma exists_writeNumber_eq_cons (n : JsonNumber) :
    ∃ c cs, writeNumber n = c :: cs ∧ (c = '-' ∨ c.isDigit = true) := by
  obtain ⟨c, cs, hdigits, hc⟩ := exists_toDigits_eq_cons n.whole
  rw [writeNumber_eq, hdigits]
  cases n.negative with
  | true => exact ⟨'-', _, rfl, .inl rfl⟩
  | false => exact ⟨c, _, rfl, .inr hc⟩

/-- What begins as a number is read as one. -/
lemma token?_of_number {c : Char} {cs : List Char} (hc : c = '-' ∨ c.isDigit = true) :
    token? (c :: cs) = (number? (c :: cs)).map fun (n, rest) => (.number n, rest) := by
  have hne : ∀ d : Char, d ≠ '-' → d.isDigit = false → c ≠ d := by
    rintro d hminus hdigit rfl
    obtain rfl | hc := hc
    · exact hminus rfl
    · rw [hdigit] at hc
      cases hc
  rw [token?.eq_def]
  split
  case h_11 => rfl
  all_goals
    next h => exact absurd (List.cons.inj h).1 (hne _ (by decide) (by decide))

/-- A token is read back from its characters.  A number is one only if what comes behind it does
not go on with it; all other tokens end by themselves. -/
theorem token?_write (t : Token) {rest : List Char}
    (hrest : t.isNumber = true → EndsNumber rest) : token? (t.write ++ rest) = some (t, rest) := by
  cases t with
  | string s => exact token?_writeText s rest
  | number n =>
    obtain ⟨c, cs, hwrite, hc⟩ := exists_writeNumber_eq_cons n
    have hread := number?_writeNumber n (hrest rfl)
    rw [Token.write]
    rw [hwrite, List.cons_append] at hread ⊢
    rw [token?_of_number hc, hread]
    rfl
  | bool b => cases b <;> rfl
  | _ => rfl

/-! ## Texts -/

lemma token?_blank {c : Char} (hc : isBlank c = true) (s : List Char) : token? (c :: s) = none := by
  simp only [isBlank, Bool.or_eq_true, decide_eq_true_eq] at hc
  obtain ((rfl | rfl) | rfl) | rfl := hc <;> rfl

lemma lex_blank {c : Char} (hc : isBlank c = true) (s : List Char) : lex (c :: s) = lex s := by
  rw [lex, if_pos hc]

lemma lex_of_token? {s rest : List Char} {t : Token} (h : token? s = some (t, rest)) :
    lex s = (lex rest).map (t :: ·) := by
  cases s with
  | nil => cases h
  | cons c s =>
    have hc : ¬ isBlank c = true := by
      intro hc
      rw [token?_blank hc] at h
      cases h
    rw [lex, if_neg hc]
    split
    · next hnone =>
      rw [h] at hnone
      cases hnone
    · next hsome =>
      rw [h] at hsome
      cases hsome
      rfl

/-- That a text spells tokens: it has their characters in this order, with any blanks between them,
before the first one and behind the last. -/
inductive Spells : List Token → List Char → Prop where
  | nil : Spells [] []
  | blank {ts : List Token} {s : List Char} {c : Char} :
    isBlank c = true → Spells ts s → Spells ts (c :: s)
  | token {ts : List Token} {s : List Char} (t : Token) :
    (t.isNumber = true → EndsNumber s) → Spells ts s → Spells (t :: ts) (t.write ++ s)

/-- Any tokens are spelled with a blank before each of them: a blank goes on with no number. -/
lemma spells_spaced (ts : List Token) : Spells ts (ts.flatMap fun t => ' ' :: t.write) := by
  induction ts with
  | nil => exact .nil
  | cons t ts ih =>
    rw [List.flatMap_cons, List.cons_append]
    refine .blank rfl (ih.token t fun _ => ?_)
    cases ts with
    | nil => exact avoids_nil _
    | cons next ts => exact avoids_cons_iff.2 rfl

/-- A text has the tokens that it spells. -/
theorem lex_of_spells {ts : List Token} {s : List Char} (h : Spells ts s) : lex s = some ts := by
  induction h with
  | nil => rw [lex]
  | blank hc _ ih => rw [lex_blank hc, ih]
  | token t hends _ ih => rw [lex_of_token? (token?_write t hends), ih, Option.map_some]

end RollupBoundary.Json
