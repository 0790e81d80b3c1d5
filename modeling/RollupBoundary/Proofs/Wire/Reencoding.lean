import Mathlib
import RollupBoundary.Proofs.Wire.Value

/-!
# Octets that were read are written again

Reading is nearly the inverse of writing.  Whatever octets a reader takes, the writer of the kind
puts the same ones for the value that was read, with one exception: the twelve octets before a padded
address are not looked at and become zeros (`takeAll_putAll`).  Two streams are therefore read as the
same record exactly if they differ nowhere else.

Each reader is inverted on its own (`FieldKind.take_eq_ok_iff`): it succeeds on the octets that
carry a value and on no others (`WireValue.CarriedBy`).  What a record is carried by is then said by
places (`carriedAll_iff`), which depend on the lengths of the byte strings before them.
-/

namespace RollupBoundary.Wire

/-! ## Readers that succeed -/

lemma map_eq_ok_iff {α β : Type} {r : Except StreamError α × Bytes} {f : α → β} {b : β}
    {rest : Bytes} :
    (r.1.map f, r.2) = (.ok b, rest) ↔ ∃ a, r = (.ok a, rest) ∧ f a = b := by
  obtain ⟨_ | a, s⟩ := r <;> simp [Except.map, and_comm]

section Readers

variable {s rest : Bytes}

lemma takeHash_eq_ok_iff {w : Word} :
    takeHash s = (.ok w, rest) ↔ s = w.toBytes ++ rest := by
  constructor
  · intro h
    obtain ⟨bs, hpart, rfl⟩ := (map_eq_ok_iff (r := takePart .hash hashWidth s)).1 h
    obtain ⟨hlength, rfl⟩ := takePart_eq_ok_iff.1 hpart
    rw [Word.toBytes_ofBytes hlength]
  · intro hs
    rw [hs, takeHash_append]

lemma takeAddress_eq_ok_iff {a : Address} :
    takeAddress s = (.ok a, rest) ↔ s = a.toBytes ++ rest := by
  constructor
  · intro h
    obtain ⟨bs, hpart, rfl⟩ := (map_eq_ok_iff (r := takePart .address addressWidth s)).1 h
    obtain ⟨hlength, rfl⟩ := takePart_eq_ok_iff.1 hpart
    rw [Address.toBytes_ofBytes hlength]
  · intro hs
    rw [hs, takeAddress_append]

/-- Nothing is asked of the octets before a padded address but that they are twelve. -/
lemma takePaddedAddress_eq_ok_iff {a : Address} :
    takePaddedAddress s = (.ok a, rest) ↔
      ∃ before : Bytes, before.length = padding ∧ s = before ++ a.toBytes ++ rest := by
  constructor
  · intro h
    obtain ⟨bs, hpart, rfl⟩ := (map_eq_ok_iff (r := takePart .paddedAddress paddedWidth s)).1 h
    obtain ⟨hlength, rfl⟩ := takePart_eq_ok_iff.1 hpart
    have hpadding : (bs.take padding).length = padding := by
      rw [List.length_take, hlength]
      rfl
    have haddress : (bs.drop padding).length = 20 := by
      rw [List.length_drop, hlength]
      rfl
    refine ⟨bs.take padding, hpadding, ?_⟩
    rw [Address.toBytes_ofBytes haddress, List.take_append_drop]
  · rintro ⟨before, hbefore, rfl⟩
    exact takePaddedAddress_append hbefore a rest

lemma takeUInt64_eq_ok_iff {n : UInt64} :
    takeUInt64 s = (.ok n, rest) ↔ s = Bytes.ofNat uint64Width n.toNat ++ rest := by
  constructor
  · intro h
    obtain ⟨bs, hpart, rfl⟩ := (map_eq_ok_iff (r := takePart .uint64 uint64Width s)).1 h
    obtain ⟨hlength, rfl⟩ := takePart_eq_ok_iff.1 hpart
    have hlt : Bytes.toNat bs < 2 ^ 64 := by
      have hwidth := Bytes.toNat_lt bs
      rwa [hlength] at hwidth
    rw [UInt64.toNat_ofNat', Nat.mod_eq_of_lt hlt, ← hlength, Bytes.ofNat_toNat]
  · intro hs
    rw [hs, takeUInt64_append]

lemma takeByteString_eq_ok_iff {max : UInt64} {bs : Bytes} :
    takeByteString max s = (.ok bs, rest) ↔ bs.length ≤ max.toNat ∧ bs.length < memoryBound ∧
      s = Bytes.ofNat uint64Width (UInt64.ofNat bs.length).toNat ++ (bs ++ rest) := by
  constructor
  · intro h
    rw [takeByteString] at h
    split at h
    · cases h
    · next declared s' hlength =>
      split at h
      · cases h
      · next hadmitted =>
        split at h
        · cases h
        · next hroom =>
          obtain ⟨hpayload, rfl⟩ := takePart_eq_ok_iff.1 h
          rw [UInt64.lt_iff_toNat_lt] at hadmitted
          refine ⟨by omega, by omega, ?_⟩
          rw [hpayload, UInt64.ofNat_toNat]
          exact takeUInt64_eq_ok_iff.1 hlength
  · rintro ⟨hadmitted, hroom, rfl⟩
    exact takeByteString_append hadmitted hroom rest

end Readers

/-! ## Octets that carry a value -/

/-- That octets are those of a value, except that any octets may stand before a padded address. -/
def WireValue.CarriedBy : WireValue → Bytes → Prop
  | .paddedAddress a, bs => ∃ before : Bytes, before.length = padding ∧ bs = before ++ a.toBytes
  | v, bs => bs = v.encode

/-- A reader gives the value that the octets before the rest carry, and succeeds on no others. -/
theorem FieldKind.take_eq_ok_iff {kind : FieldKind} {s rest : Bytes} {v : WireValue} :
    kind.take s = (.ok v, rest) ↔
      v.fits kind ∧ ∃ bs, v.CarriedBy bs ∧ s = bs ++ rest := by
  constructor
  · intro h
    cases kind with
    | hash =>
      obtain ⟨w, hread, rfl⟩ := (map_eq_ok_iff (r := takeHash s)).1 h
      have hs := takeHash_eq_ok_iff.1 hread
      exact ⟨trivial, _, rfl, by simpa [WireValue.encode, WireValue.parts] using hs⟩
    | address =>
      obtain ⟨a, hread, rfl⟩ := (map_eq_ok_iff (r := takeAddress s)).1 h
      have hs := takeAddress_eq_ok_iff.1 hread
      exact ⟨trivial, _, rfl, by simpa [WireValue.encode, WireValue.parts] using hs⟩
    | paddedAddress =>
      obtain ⟨a, hread, rfl⟩ := (map_eq_ok_iff (r := takePaddedAddress s)).1 h
      obtain ⟨before, hbefore, hs⟩ := takePaddedAddress_eq_ok_iff.1 hread
      exact ⟨trivial, _, ⟨before, hbefore, rfl⟩, hs⟩
    | uint64 =>
      obtain ⟨n, hread, rfl⟩ := (map_eq_ok_iff (r := takeUInt64 s)).1 h
      have hs := takeUInt64_eq_ok_iff.1 hread
      exact ⟨trivial, _, rfl, by simpa [WireValue.encode, WireValue.parts] using hs⟩
    | byteString max =>
      obtain ⟨bs, hread, rfl⟩ := (map_eq_ok_iff (r := takeByteString max s)).1 h
      obtain ⟨hadmitted, hroom, hs⟩ := takeByteString_eq_ok_iff.1 hread
      exact ⟨⟨hadmitted, hroom⟩, _, rfl, by simpa [WireValue.encode, WireValue.parts] using hs⟩
  · rintro ⟨hfits, bs, hcarried, rfl⟩
    cases v with
    | paddedAddress a =>
      cases kind with
      | paddedAddress =>
        obtain ⟨before, hbefore, rfl⟩ := hcarried
        rw [take, takePaddedAddress_append hbefore]
        rfl
      | _ => exact absurd hfits id
    | _ =>
      simp only [WireValue.CarriedBy] at hcarried
      rw [hcarried, take_encode hfits]

/-! ## Octets that carry a record -/

/-- That octets carry the values of a record, one behind the other. -/
inductive CarriedAll : List WireValue → Bytes → Prop where
  | nil : CarriedAll [] []
  | cons {v : WireValue} {vs : List WireValue} {bs others : Bytes} :
    v.CarriedBy bs → CarriedAll vs others → CarriedAll (v :: vs) (bs ++ others)

/-- Reading a record succeeds on the octets that carry one, and on no others. -/
theorem FieldKind.takeAll_eq_ok_iff {kinds : List FieldKind} {s rest : Bytes}
    {vs : List WireValue} :
    takeAll kinds s = (vs.map .ok, rest) ↔
      List.Forall₂ WireValue.fits vs kinds ∧ ∃ bs, CarriedAll vs bs ∧ s = bs ++ rest := by
  induction kinds generalizing s vs with
  | nil =>
    constructor
    · intro h
      obtain ⟨hvs, rfl⟩ := Prod.mk.inj h
      obtain rfl : vs = [] := List.map_eq_nil_iff.1 hvs.symm
      exact ⟨.nil, [], .nil, rfl⟩
    · rintro ⟨hfits, bs, hcarried, rfl⟩
      cases hfits
      cases hcarried
      rfl
  | cons kind kinds ih =>
    constructor
    · intro h
      obtain ⟨⟨result, left⟩, hread⟩ : ∃ r, kind.take s = r := ⟨_, rfl⟩
      rw [takeAll, hread] at h
      obtain ⟨hresults, hrest⟩ := Prod.mk.inj h
      cases vs with
      | nil => cases hresults
      | cons v vs =>
        obtain ⟨rfl, hothers⟩ := List.cons.inj hresults
        obtain ⟨hfits, bs, hcarried, rfl⟩ := take_eq_ok_iff.1 hread
        obtain ⟨hfitsAll, others, hcarriedAll, rfl⟩ := ih.1 (Prod.ext hothers hrest)
        exact ⟨.cons hfits hfitsAll, bs ++ others, .cons hcarried hcarriedAll,
          (List.append_assoc ..).symm⟩
    · rintro ⟨hfits, bs, hcarried, rfl⟩
      cases hfits with
      | cons hfits hfitsAll =>
        cases hcarried with
        | cons hcarried hcarriedAll =>
          rw [List.append_assoc,
            takeAll_cons (take_eq_ok_iff.2 ⟨hfits, _, hcarried, rfl⟩) rfl kinds,
            ih.2 ⟨hfitsAll, _, hcarriedAll, rfl⟩, List.map_cons]

/-! ## Places -/

/-- That a place within the octets of a value is one of those that nobody looks at. -/
def WireValue.IsPadding : WireValue → Nat → Prop
  | .paddedAddress _, i => i < padding
  | _, _ => False

/-- That a place within the octets of a record is one of those before a padded address. -/
def InPadding (vs : List WireValue) (i : Nat) : Prop :=
  ∃ k a, vs[k]? = some (.paddedAddress a) ∧ startOf vs k ≤ i ∧ i < startOf vs k + padding

/-- That octets differ at most before the padded addresses of a record. -/
def SameButPadding (vs : List WireValue) (bs bs' : Bytes) : Prop :=
  bs.length = bs'.length ∧ ∀ i, ¬ InPadding vs i → bs[i]? = bs'[i]?

lemma WireValue.isPadding_iff {v : WireValue} {i : Nat} :
    v.IsPadding i ↔ ∃ a, v = .paddedAddress a ∧ i < padding := by
  cases v <;> simp [IsPadding]

lemma WireValue.IsPadding.lt_length {v : WireValue} {i : Nat} (h : v.IsPadding i) :
    i < v.encode.length := by
  obtain ⟨a, rfl, hi⟩ := isPadding_iff.1 h
  rw [length_encode, width]
  rw [padding] at hi
  omega

/-- The places of a record are those of its first value and, behind them, those of the others. -/
lemma inPadding_cons_iff {v : WireValue} {vs : List WireValue} {i : Nat} :
    InPadding (v :: vs) i ↔
      v.IsPadding i ∨ v.encode.length ≤ i ∧ InPadding vs (i - v.encode.length) := by
  rw [WireValue.isPadding_iff]
  constructor
  · rintro ⟨k, a, hk, hle, hlt⟩
    cases k with
    | zero =>
      rw [startOf_zero, Nat.zero_add] at hlt
      exact .inl ⟨a, Option.some.inj hk, hlt⟩
    | succ k =>
      rw [startOf_cons_succ] at hle hlt
      exact .inr ⟨by omega, k, a, hk, by omega, by omega⟩
  · rintro (⟨a, rfl, hi⟩ | ⟨hbehind, k, a, hk, hle, hlt⟩)
    · exact ⟨0, a, rfl, Nat.zero_le i, by simpa using hi⟩
    · refine ⟨k + 1, a, hk, ?_, ?_⟩ <;> rw [startOf_cons_succ] <;> omega

/-- Octets carry a value if they are its octets wherever a reader looks. -/
lemma WireValue.carriedBy_iff {v : WireValue} {bs : Bytes} :
    v.CarriedBy bs ↔
      bs.length = v.encode.length ∧ ∀ i, ¬ v.IsPadding i → bs[i]? = v.encode[i]? := by
  cases v with
  | paddedAddress a =>
    have hencode : (paddedAddress a).encode = Bytes.zeros padding ++ a.toBytes := by
      simp [encode, parts]
    rw [hencode, List.length_append, Bytes.length_zeros]
    simp only [CarriedBy, IsPadding, Nat.not_lt]
    constructor
    · rintro ⟨before, hbefore, rfl⟩
      refine ⟨by rw [List.length_append, hbefore], fun i hi => ?_⟩
      rw [List.getElem?_append_right (by omega), List.getElem?_append_right (by simpa using hi),
        hbefore, Bytes.length_zeros]
    · rintro ⟨hlength, hsame⟩
      refine ⟨bs.take padding, by rw [List.length_take]; omega, ?_⟩
      have hdrop : bs.drop padding = a.toBytes := by
        apply List.ext_getElem?
        intro i
        rw [List.getElem?_drop, hsame _ (Nat.le_add_right padding i),
          List.getElem?_append_right (by simp), Bytes.length_zeros, Nat.add_sub_cancel_left]
      rw [← hdrop, List.take_append_drop]
  | _ =>
    simp only [CarriedBy, IsPadding, not_false_eq_true, forall_const]
    constructor
    · intro hbs
      rw [hbs]
      exact ⟨rfl, fun _ => rfl⟩
    · exact fun h => List.ext_getElem? h.2

/-- Octets differ at most in padding if the first ones do, and those behind them. -/
lemma sameButPadding_cons_iff {v : WireValue} {vs : List WireValue} {bs others : Bytes}
    (hlength : bs.length = v.encode.length) :
    SameButPadding (v :: vs) (bs ++ others) (encodeAll (v :: vs)) ↔
      (∀ i, ¬ v.IsPadding i → bs[i]? = v.encode[i]?) ∧
        SameButPadding vs others (encodeAll vs) := by
  rw [SameButPadding, encodeAll_cons, List.length_append, List.length_append]
  constructor
  · rintro ⟨hlengthAll, hsame⟩
    refine ⟨fun i hi => ?_, by omega, fun i hi => ?_⟩
    · by_cases hlt : i < v.encode.length
      · have hplace : ¬ InPadding (v :: vs) i := by
          rw [inPadding_cons_iff]
          rintro (hin | ⟨hbehind, -⟩)
          · exact hi hin
          · omega
        have hsame := hsame i hplace
        rwa [List.getElem?_append_left (by omega), List.getElem?_append_left hlt] at hsame
      · rw [List.getElem?_eq_none (by omega), List.getElem?_eq_none (by omega)]
    · have hplace : ¬ InPadding (v :: vs) (v.encode.length + i) := by
        rw [inPadding_cons_iff, Nat.add_sub_cancel_left]
        rintro (hin | ⟨-, hin⟩)
        · exact absurd hin.lt_length (by omega)
        · exact hi hin
      have hsame := hsame _ hplace
      rwa [List.getElem?_append_right (by omega), List.getElem?_append_right (by omega), hlength,
        Nat.add_sub_cancel_left] at hsame
  · rintro ⟨hsame, hlengthAll, hsameAll⟩
    refine ⟨by omega, fun i hi => ?_⟩
    rw [inPadding_cons_iff, not_or] at hi
    by_cases hbehind : v.encode.length ≤ i
    · rw [List.getElem?_append_right (by omega), List.getElem?_append_right hbehind, hlength]
      exact hsameAll _ fun hin => hi.2 ⟨hbehind, hin⟩
    · rw [List.getElem?_append_left (by omega), List.getElem?_append_left (by omega)]
      exact hsame i hi.1

/-- Octets carry a record if they are its octets except before padded addresses. -/
theorem carriedAll_iff {vs : List WireValue} {bs : Bytes} :
    CarriedAll vs bs ↔ SameButPadding vs bs (encodeAll vs) := by
  induction vs generalizing bs with
  | nil =>
    constructor
    · rintro ⟨⟩
      exact ⟨rfl, fun _ _ => rfl⟩
    · rintro ⟨hlength, -⟩
      obtain rfl : bs = [] := List.eq_nil_of_length_eq_zero hlength
      exact .nil
  | cons v vs ih =>
    constructor
    · intro h
      cases h with
      | cons hfirst hothers =>
        obtain ⟨hlength, hsame⟩ := WireValue.carriedBy_iff.1 hfirst
        exact (sameButPadding_cons_iff hlength).2 ⟨hsame, ih.1 hothers⟩
    · intro h
      have hlength : (bs.take v.encode.length).length = v.encode.length := by
        have hall := h.1
        rw [encodeAll_cons, List.length_append] at hall
        rw [List.length_take]
        omega
      rw [← List.take_append_drop v.encode.length bs] at h ⊢
      obtain ⟨hsame, hothers⟩ := (sameButPadding_cons_iff hlength).1 h
      exact .cons (WireValue.carriedBy_iff.2 ⟨hlength, hsame⟩) (ih.2 hothers)

/-! ## Written again -/

lemma SameButPadding.symm {vs : List WireValue} {bs bs' : Bytes} (h : SameButPadding vs bs bs') :
    SameButPadding vs bs' bs :=
  ⟨h.1.symm, fun i hi => (h.2 i hi).symm⟩

lemma SameButPadding.trans {vs : List WireValue} {bs bs' bs'' : Bytes}
    (h : SameButPadding vs bs bs') (h' : SameButPadding vs bs' bs'') : SameButPadding vs bs bs'' :=
  ⟨h.1.trans h'.1, fun i hi => (h.2 i hi).trans (h'.2 i hi)⟩

lemma putAll_eq (vs : List WireValue) (buffer : Bytes) :
    WireValue.putAll vs buffer = (vs.map fun _ => .ok (), buffer ++ encodeAll vs) := by
  induction vs generalizing buffer with
  | nil => simp [WireValue.putAll, encodeAll]
  | cons v vs ih =>
    rw [WireValue.putAll, WireValue.put_eq]
    simp only [ih, List.map_cons, encodeAll_cons, List.append_assoc]

/-- A writer puts zeros before a padded address. -/
lemma getElem?_encodeAll_of_inPadding {vs : List WireValue} {i : Nat} (h : InPadding vs i) :
    (encodeAll vs)[i]? = some 0 := by
  induction vs generalizing i with
  | nil =>
    obtain ⟨k, a, hk, -⟩ := h
    cases hk
  | cons v vs ih =>
    rw [encodeAll_cons]
    obtain hfirst | ⟨hbehind, hothers⟩ := inPadding_cons_iff.1 h
    · rw [List.getElem?_append_left hfirst.lt_length]
      obtain ⟨a, rfl, hi⟩ := WireValue.isPadding_iff.1 hfirst
      simp [WireValue.encode, WireValue.parts, Bytes.zeros, List.getElem?_append_left, hi]
    · rw [List.getElem?_append_right hbehind]
      exact ih hothers

/-- A record that was read is written as the octets it was read from, with zeros as padding.

Whatever the octets are, if fields are read from them one after another and all of them succeed, the
writers of their kinds put the octets that were consumed, except that the twelve before each padded
address become zeros.  Other octets are read as the same values exactly if they differ at most
there. -/
theorem takeAll_putAll {kinds : List FieldKind} {s rest : Bytes} {vs : List WireValue}
    (h : FieldKind.takeAll kinds s = (vs.map .ok, rest)) :
    ∃ bs, s = bs ++ rest ∧ List.Forall₂ WireValue.fits vs kinds ∧
      (let (results, written) := WireValue.putAll vs ([] : Bytes)
       results = vs.map (fun _ => .ok ()) ∧ SameButPadding vs written bs ∧
         ∀ i, InPadding vs i → written[i]? = some 0) ∧
      ∀ bs' rest' vs', FieldKind.takeAll kinds (bs' ++ rest') = (vs'.map .ok, rest') →
        (vs = vs' ↔ SameButPadding vs bs bs') := by
  obtain ⟨hfits, bs, hcarried, rfl⟩ := FieldKind.takeAll_eq_ok_iff.1 h
  have hsame := carriedAll_iff.1 hcarried
  refine ⟨bs, rfl, hfits, ?_, fun bs' rest' vs' h' => ?_⟩
  · rw [putAll_eq, List.nil_append]
    exact ⟨rfl, hsame.symm, fun i => getElem?_encodeAll_of_inPadding⟩
  · constructor
    · rintro rfl
      obtain ⟨-, bs'', hcarried', hbs⟩ := FieldKind.takeAll_eq_ok_iff.1 h'
      obtain rfl : bs' = bs'' := List.append_cancel_right hbs
      exact hsame.trans (carriedAll_iff.1 hcarried').symm
    · intro hdiffer
      have hcarried' : CarriedAll vs bs' := carriedAll_iff.2 (hdiffer.symm.trans hsame)
      have hread : FieldKind.takeAll kinds (bs' ++ rest') = (vs.map .ok, rest') :=
        FieldKind.takeAll_eq_ok_iff.2 ⟨hfits, bs', hcarried', rfl⟩
      have hvalues : (vs.map .ok : List (Except StreamError WireValue)) = vs'.map .ok :=
        congrArg Prod.fst (hread.symm.trans h')
      exact List.map_injective_iff.2 (fun _ _ => Except.ok.inj) hvalues

/-- Fields of which the second begins behind a byte string. -/
def mixedKinds : List FieldKind :=
  [.byteString 4, .paddedAddress, .uint64]

/-- What they hold. -/
def mixedValues : List WireValue :=
  [.byteString [1, 2], .paddedAddress 7, .uint64 258]

/-- Their octets, with something before the address. -/
def paddedWith (before : Bytes) : Bytes :=
  [0, 0, 0, 0, 0, 0, 0, 2, 1, 2] ++ before ++ Address.toBytes 7 ++ [0, 0, 0, 0, 0, 0, 1, 2]

/-- The record is read whatever stands before the address, and loses it when it is written. -/
theorem paddedWith_putAll :
    let dirty := paddedWith (List.replicate 12 0xEE)
    let clean := paddedWith (Bytes.zeros 12)
    FieldKind.takeAll mixedKinds (dirty ++ [5]) = (mixedValues.map .ok, [5]) ∧
      SameButPadding mixedValues (WireValue.putAll mixedValues ([] : Bytes)).2 dirty ∧
      SameButPadding mixedValues dirty clean := by
  intro dirty clean
  have hdirty : FieldKind.takeAll mixedKinds (dirty ++ [5]) = (mixedValues.map .ok, [5]) := rfl
  have hclean : FieldKind.takeAll mixedKinds (clean ++ []) = (mixedValues.map .ok, []) := rfl
  obtain ⟨bs, hbs, -, ⟨-, hwritten, -⟩, hsame⟩ := takeAll_putAll hdirty
  obtain rfl : dirty = bs := List.append_cancel_right hbs
  exact ⟨hdirty, hwritten, (hsame clean [] mixedValues hclean).1 rfl⟩

end RollupBoundary.Wire
