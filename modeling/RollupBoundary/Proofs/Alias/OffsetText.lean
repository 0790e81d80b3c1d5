import Mathlib
import RollupBoundary.Checksum
import RollupBoundary.Configuration
import RollupBoundary.Proofs.Alias.Digits
import RollupBoundary.Proofs.Text.Utf8

/-!
# Texts that spell an offset

An offset may be given as a text, and the texts that are taken are those of a small grammar: at most
one `0x` or `0X`, and behind it one or more hexadecimal digits of either case and underscores, whose
digits spell a number below `2 ^ 160` (`IsNumeral`, `numeral`).  How a number is spelled makes no
difference, and a text that spells none is refused with the fault nearest its end
(`ofSetting_spelled`).

A text is read as its octets.  Those of a character beyond ASCII are no digits, so a text has the
digits that its characters are (`digitsOf_encodeChar`), and each of its characters is one of a
numeral if all octets of it are (`allDigits_encodeChar_iff`).
-/

namespace RollupBoundary.Aliasing

/-! ## Numerals -/

/-- That a text begins with at most one `0x` or `0X`, and what is behind it. -/
inductive Unprefixed : List Char → List Char → Prop where
  | lower (rest : List Char) : Unprefixed ('0' :: 'x' :: rest) rest
  | upper (rest : List Char) : Unprefixed ('0' :: 'X' :: rest) rest
  | bare {all : List Char} :
    ¬ ['0', 'x'] <+: all → ¬ ['0', 'X'] <+: all → Unprefixed all all

/-- That there is something, and nothing but digits of either case and underscores. -/
def IsNumeral (cs : List Char) : Prop :=
  cs ≠ [] ∧ ∀ c ∈ cs, c = '_' ∨ (Hex.value? c).isSome = true

instance (cs : List Char) : Decidable (IsNumeral cs) :=
  @instDecidableAnd _ _ inferInstance
    (List.decidableBAll (fun c => c = '_' ∨ (Hex.value? c).isSome = true) cs)

/-- The number that the digits of a text spell, most significant digit first. -/
def numeral (cs : List Char) : Nat :=
  Nat.ofDigits 16 (cs.filterMap Hex.value?).reverse

lemma unprefixed_significant (text : String) : Unprefixed text.toList (significant text) := by
  rw [significant]
  split
  · next rest htext => exact htext ▸ .lower rest
  · next rest htext => exact htext ▸ .upper rest
  · next hlower hupper =>
    refine .bare ?_ ?_
    · rintro ⟨rest, hrest⟩
      exact hlower rest hrest.symm
    · rintro ⟨rest, hrest⟩
      exact hupper rest hrest.symm

/-! ## Octets of a numeral -/

lemma digitValue?_ofNat {n : Nat} (h : n < 128) :
    digitValue? (UInt8.ofNat n) = Hex.value? (Char.ofNat n) := by
  have hnat : (UInt8.ofNat n).toNat = n := by
    rw [UInt8.toNat_ofNat', Nat.mod_eq_of_lt (by omega)]
  rw [digitValue?, if_pos (by rw [UInt8.lt_iff_toNat_lt, hnat]; exact h), hnat]

lemma digitValue?_of_le {b : UInt8} (h : 128 ≤ b.toNat) : digitValue? b = none := by
  rw [digitValue?, if_neg]
  rw [UInt8.lt_iff_toNat_lt]
  exact Nat.not_lt_of_le h

lemma value?_of_le {c : Char} (h : 128 ≤ c.toNat) : Hex.value? c = none := by
  cases hvalue : Hex.value? c with
  | none => rfl
  | some d => exact absurd (Hex.value?_lt hvalue).2 (Nat.not_lt_of_le h)

lemma digitsOf_encodeChar (c : Char) :
    digitsOf (String.utf8EncodeChar c) = (Hex.value? c).toList := by
  by_cases hc : c.toNat < 128
  · rw [Utf8.encodeChar_of_lt hc, digitsOf, List.filterMap_cons, digitValue?_ofNat hc,
      Char.ofNat_toNat]
    cases Hex.value? c <;> rfl
  · rw [value?_of_le (by omega), Option.toList_none, digitsOf, List.filterMap_eq_nil_iff]
    exact fun b hb => digitValue?_of_le (Utf8.le_of_mem_encodeChar (by omega) hb)

lemma valueOf_flatMap (cs : List Char) :
    valueOf (cs.flatMap String.utf8EncodeChar) = numeral cs := by
  have hdigits : digitsOf (cs.flatMap String.utf8EncodeChar) = cs.filterMap Hex.value? := by
    rw [digitsOf, List.filterMap_flatMap, List.filterMap_eq_flatMap_toList]
    exact List.flatMap_congr fun c _ => digitsOf_encodeChar c
  rw [valueOf, numeral, hdigits]

lemma allDigits_encodeChar_iff (c : Char) :
    AllDigits (String.utf8EncodeChar c) ↔ c = '_' ∨ (Hex.value? c).isSome = true := by
  by_cases hc : c.toNat < 128
  · have hunderscore : UInt8.ofNat c.toNat = 0x5F ↔ c = '_' := by
      rw [← UInt8.toNat_inj, UInt8.toNat_ofNat', Nat.mod_eq_of_lt (by omega), ← Char.toNat_inj]
      rfl
    rw [Utf8.encodeChar_of_lt hc, AllDigits, List.forall_mem_singleton, hunderscore,
      digitValue?_ofNat hc, Char.ofNat_toNat]
  · rw [value?_of_le (by omega)]
    constructor
    · intro h
      obtain ⟨b, hb⟩ := List.exists_mem_of_ne_nil _ (Utf8.encodeChar_ne_nil c)
      have hle := Utf8.le_of_mem_encodeChar (by omega) hb
      obtain rfl | hdigit := h b hb
      · exact absurd hle (by decide)
      · rw [digitValue?_of_le hle] at hdigit
        cases hdigit
    · rintro (rfl | hdigit)
      · exact absurd (show '_'.toNat < 128 by decide) hc
      · cases hdigit

lemma allDigits_flatMap_iff (cs : List Char) :
    AllDigits (cs.flatMap String.utf8EncodeChar) ↔
      ∀ c ∈ cs, c = '_' ∨ (Hex.value? c).isSome = true := by
  simp only [← allDigits_encodeChar_iff, AllDigits, List.mem_flatMap]
  exact ⟨fun h c hc b hb => h b ⟨c, hc, hb⟩, fun h b ⟨c, hc, hb⟩ => h c hc b hb⟩

/-! ## Texts -/

section Texts

variable {text : String} {o : Aliasing} {f : Fault}

lemma ofText_of_nil (h : significant text = []) : ofText text = .error .empty := by
  rw [ofText, h]

lemma ofText_of_ne_nil (h : significant text ≠ []) :
    ofText text =
      (readDigits ((significant text).flatMap String.utf8EncodeChar).reverse 0 0).map
        fun n => ⟨BitVec.ofNat 160 n⟩ := by
  rw [ofText]
  split
  · next hnil => exact absurd hnil h
  · rfl

lemma ofText_eq_ok_iff :
    ofText text = .ok o ↔
      IsNumeral (significant text) ∧ numeral (significant text) < 2 ^ 160 ∧
        o = ⟨BitVec.ofNat 160 (numeral (significant text))⟩ := by
  by_cases hnil : significant text = []
  · rw [ofText_of_nil hnil]
    exact ⟨nofun, fun h => absurd hnil h.1.1⟩
  · have hread : ofText text = .ok o ↔ ∃ n,
        readDigits ((significant text).flatMap String.utf8EncodeChar).reverse 0 0 = .ok n ∧
          o = ⟨BitVec.ofNat 160 n⟩ := by
      rw [ofText_of_ne_nil hnil]
      cases readDigits ((significant text).flatMap String.utf8EncodeChar).reverse 0 0 with
      | error f => exact ⟨nofun, fun ⟨_, h, _⟩ => nomatch h⟩
      | ok n => simp [Except.map, eq_comm]
    rw [hread, IsNumeral]
    simp only [readDigits_eq_ok_iff, clear_iff, allDigits_flatMap_iff, valueOf_flatMap]
    constructor
    · rintro ⟨n, ⟨⟨hall, hlt⟩, rfl⟩, ho⟩
      exact ⟨⟨hnil, hall⟩, hlt, ho⟩
    · rintro ⟨⟨-, hall⟩, hlt, ho⟩
      exact ⟨_, ⟨⟨hall, hlt⟩, rfl⟩, ho⟩

lemma ofText_eq_error_iff :
    ofText text = .error f ↔
      significant text = [] ∧ f = .empty ∨
        LastFault ((significant text).flatMap String.utf8EncodeChar) f := by
  by_cases hnil : significant text = []
  · rw [ofText_of_nil hnil, hnil, List.flatMap_nil, Except.error.injEq]
    exact ⟨fun h => .inl ⟨rfl, h.symm⟩, fun h => h.elim (fun h => h.2.symm)
      fun h => absurd h not_lastFault_nil⟩
  · have hread : ofText text = .error f ↔
        readDigits ((significant text).flatMap String.utf8EncodeChar).reverse 0 0 = .error f := by
      rw [ofText_of_ne_nil hnil]
      cases readDigits ((significant text).flatMap String.utf8EncodeChar).reverse 0 0 with
      | error g => simp [Except.map]
      | ok n => exact ⟨nofun, nofun⟩
    rw [hread, readDigits_eq_error_iff]
    exact ⟨.inr, fun h => h.resolve_left fun h => hnil h.1⟩

lemma ofSetting_eq_ok_iff : ofSetting (some text) = .ok o ↔ ofText text = .ok o := by
  rw [ofSetting]
  cases ofText text with
  | ok o' => simp
  | error f => simp

lemma ofSetting_eq_error_iff {e : ConfigurationError} :
    ofSetting (some text) = .error e ↔ ∃ f, e = .invalidOffset text f ∧ ofText text = .error f := by
  rw [ofSetting]
  cases ofText text with
  | ok o' => simp
  | error f => simp [eq_comm]

end Texts

/-! ## Printed offsets -/

lemma IsNumeral.significant_eq {cs : List Char} (h : IsNumeral cs) :
    significant (String.ofList cs) = cs := by
  have hx : ∀ c ∈ ['x', 'X'], c ∉ cs := by
    intro c hc hmem
    obtain hc' | hc' := h.2 c hmem <;> fin_cases hc <;> revert hc' <;> decide
  have hbehind := unprefixed_significant (String.ofList cs)
  rw [String.toList_ofList] at hbehind
  generalize significant (String.ofList cs) = rest at hbehind
  cases hbehind with
  | lower => exact absurd (by simp) (hx 'x' (by decide))
  | upper => exact absurd (by simp) (hx 'X' (by decide))
  | bare => rfl

lemma significant_append (cs : List Char) : significant ("0x" ++ String.ofList cs) = cs := by
  have htext : ("0x" ++ String.ofList cs).toList = '0' :: 'x' :: cs := by simp
  rw [significant, htext]
  rfl

/-- Characters that are the digits of an address, each in either case. -/
def Prints (a : Address) (cs : List Char) : Prop :=
  cs.map Hex.value? = (Hex.nibbles a.toBytes).map some

section Prints

variable {a : Address} {cs : List Char}

lemma Prints.isNumeral (h : Prints a cs) : IsNumeral cs := by
  have hlength : cs.length = 40 := by
    have := congrArg List.length h
    rwa [List.length_map, List.length_map, Hex.length_nibbles, Address.length_toBytes] at this
  refine ⟨fun hnil => ?_, fun c hc => .inr ?_⟩
  · rw [hnil] at hlength
    cases hlength
  · have hmem : Hex.value? c ∈ (Hex.nibbles a.toBytes).map some := h ▸ List.mem_map_of_mem hc
    obtain ⟨n, -, hn⟩ := List.mem_map.1 hmem
    rw [← hn, Option.isSome_some]

lemma Prints.numeral_eq (h : Prints a cs) : numeral cs = a.toNat := by
  have hvalues : cs.filterMap Hex.value? = Hex.nibbles a.toBytes := by
    rw [← Function.id_comp Hex.value?, ← List.filterMap_map, h, List.filterMap_map,
      Function.id_comp, List.filterMap_some]
  rw [numeral, hvalues, Hex.ofDigits_nibbles, Address.toBytes, Bytes.toNat_ofNat_of_lt a.isLt]

lemma Prints.ofSetting_eq {text : String} (h : Prints a cs) (htext : significant text = cs) :
    ofSetting (some text) = .ok ⟨a⟩ := by
  rw [ofSetting_eq_ok_iff, ofText_eq_ok_iff, htext, h.numeral_eq, BitVec.ofNat_toNat,
    BitVec.setWidth_eq]
  exact ⟨h.isNumeral, a.isLt, rfl⟩

lemma prints_digits (a : Address) : Prints a (Hex.digits a.toBytes) := by
  rw [Prints, Hex.digits_eq, List.map_map]
  exact List.map_congr_left fun n hn => Hex.value?_digit (Hex.lt_of_mem_nibbles hn)

lemma prints_toUpper (a : Address) : Prints a ((Hex.digits a.toBytes).map Char.toUpper) := by
  rw [Prints, Hex.digits_eq, List.map_map, List.map_map]
  exact List.map_congr_left fun n hn => Hex.value?_toUpper_digit (Hex.lt_of_mem_nibbles hn)

/-- It makes no difference which of the digits are upper case. -/
lemma prints_zipWith {β : Type} (p : β → Prop) [DecidablePred p] (a : Address) {ds : List β}
    (h : 40 ≤ ds.length) :
    Prints a
      (List.zipWith (fun c d => if p d then c.toUpper else c) (Hex.digits a.toBytes) ds) := by
  have hlength : (Hex.nibbles a.toBytes).length ≤ ds.length := by
    rwa [Hex.length_nibbles, Address.length_toBytes]
  rw [Prints, Hex.digits_eq]
  refine List.ext_getElem (by simpa using hlength) fun i _ hi => ?_
  rw [List.length_map] at hi
  have hn : (Hex.nibbles a.toBytes)[i] < 16 := Hex.lt_of_mem_nibbles (List.getElem_mem hi)
  simp only [List.getElem_map, List.getElem_zipWith]
  split
  · exact Hex.value?_toUpper_digit hn
  · exact Hex.value?_digit hn

lemma exists_prints_checksummed (a : Address) :
    ∃ cs, Prints a cs ∧ a.checksummed = "0x" ++ String.ofList cs := by
  refine ⟨_, ?_, rfl⟩
  refine prints_zipWith (fun d => '8' ≤ d) a ?_
  rw [Hex.digits_eq, List.length_map, Hex.length_nibbles, Word.length_toBytes]
  decide

end Prints

/-! ## Spelled offsets -/

/-- What becomes of a text that is to be an offset, given what is behind its `0x`: the offset of
its number, or an error that carries the text. -/
structure Settled (text : String) (rest : List Char) : Prop where
  unprefixed : Unprefixed text.toList rest
  ok_iff : ∀ o : Aliasing, ofSetting (some text) = .ok o ↔
    IsNumeral rest ∧ numeral rest < 2 ^ 160 ∧ o = ⟨BitVec.ofNat 160 (numeral rest)⟩
  error_iff : ∀ e, ofSetting (some text) = .error e ↔
    ∃ f, e = .invalidOffset text f ∧
      (rest = [] ∧ f = .empty ∨ LastFault (rest.flatMap String.utf8EncodeChar) f)

lemma settled (text : String) : Settled text (significant text) where
  unprefixed := unprefixed_significant text
  ok_iff o := by rw [ofSetting_eq_ok_iff, ofText_eq_ok_iff]
  error_iff e := by simp only [ofSetting_eq_error_iff, ofText_eq_error_iff]

/-- The texts in which an offset is printed: with a `0x` or without, in lower case, in upper case
and in the mixed case that carries a checksum. -/
def printed (o : Aliasing) : List String :=
  [Hex.encode o.offset.toBytes, o.offset.checksummed, String.ofList (Hex.digits o.offset.toBytes),
    String.ofList ((Hex.digits o.offset.toBytes).map Char.toUpper)]

lemma ofSetting_printed {o : Aliasing} {text : String} (h : text ∈ o.printed) :
    ofSetting (some text) = .ok o := by
  have hlower := prints_digits o.offset
  have hupper := prints_toUpper o.offset
  simp only [printed, List.mem_cons, List.not_mem_nil, or_false] at h
  obtain h | h | h | h := h
  · exact hlower.ofSetting_eq (h ▸ significant_append _)
  · obtain ⟨cs, hmixed, htext⟩ := exists_prints_checksummed o.offset
    rw [h, htext]
    exact hmixed.ofSetting_eq (significant_append _)
  · exact hlower.ofSetting_eq (h ▸ hlower.isNumeral.significant_eq)
  · exact hupper.ofSetting_eq (h ▸ hupper.isNumeral.significant_eq)

/-- A text is taken for an offset just when it spells a number below `2 ^ 160`, and then for the
offset of that number; any other is refused with what is wrong with it nearest the end.

Two texts that spell one number give one offset, and an offset is read back from every text in which
it is printed. -/
theorem ofSetting_spelled :
    (∀ text, Settled text (significant text)) ∧
      (∀ text text', IsNumeral (significant text) → IsNumeral (significant text') →
        numeral (significant text) = numeral (significant text') →
        numeral (significant text') < 2 ^ 160 →
        ∃ o, ofSetting (some text) = .ok o ∧ ofSetting (some text') = .ok o) ∧
      (∀ o : Aliasing, ∀ text ∈ o.printed, ofSetting (some text) = .ok o) ∧
      Fault.empty.message = "empty hex string" := by
  refine ⟨settled, ?_, fun o text h => ofSetting_printed h, rfl⟩
  intro text text' hnumeral hnumeral' hsame hlt
  refine ⟨_, ((settled text).ok_iff _).2 ⟨hnumeral, hsame ▸ hlt, rfl⟩, ?_⟩
  exact ((settled text').ok_iff _).2 ⟨hnumeral', hlt, by rw [hsame]⟩

/-- Upper and lower case, an underscore, a leading zero and a prefix make no difference, and of two
characters that are no digits the last octet of the last one is reported. -/
theorem ofSetting_mixedSpelling :
    (∃ o, ofSetting (some "0X_0aB") = .ok o ∧ ofSetting (some "Ab") = .ok o) ∧
      ofSetting (some "0xgé0_") = .error (.invalidOffset "0xgé0_" (.invalidDigit 0xA9)) := by
  obtain ⟨hsettled, hsame, -⟩ := ofSetting_spelled
  have hclear : Clear [0x30, 0x5F] := (clear_iff _).2 (by decide)
  refine ⟨hsame _ _ (by decide) (by decide) (by decide) (by decide), ?_⟩
  exact ((hsettled _).error_iff _).2 ⟨_, rfl, .inr
    ⟨0xA9, [0x30, 0x5F], by decide, .invalidDigit (by decide) (by decide), hclear⟩⟩

end RollupBoundary.Aliasing
