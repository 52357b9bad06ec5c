import ImagePull.Proofs.Text.Utf8
import ImagePull.Text.Base64
import Mathlib.Tactic.SplitIfs

/-!
# Laws of base64

A byte sequence has one written form: what is read as it is just that form
(`decode?_eq_some`). The form holds nothing but symbols of its alphabet and the filler
(`mem_encode`).
-/

namespace ImagePull.Text.Base64

variable {a : Alphabet}

/-! ## Symbols -/

theorem Alphabet.value?_symbol (a : Alphabet) {n : Nat} (h : n < 64) :
    a.value? (a.symbol n) = some n := by
  revert n
  cases a <;> decide

theorem Alphabet.symbol_ne_filler (a : Alphabet) {n : Nat} (h : n < 64) :
    a.symbol n ≠ filler := by
  revert n
  cases a <;> decide

/-- The letters and digits of an alphabet stand in runs of characters. -/
theorem ofNat_add_sub {c : Char} {first : Nat} (h : first ≤ c.toNat) :
    Char.ofNat (first + (c.toNat - first)) = c := by
  rw [Nat.add_sub_cancel' h, Char.ofNat_toNat]

theorem Alphabet.value?_eq_some {c : Char} {n : Nat} :
    a.value? c = some n ↔ n < 64 ∧ c = a.symbol n := by
  refine ⟨fun h => ?_, fun ⟨hn, hc⟩ => hc ▸ a.value?_symbol hn⟩
  simp only [value?] at h
  split_ifs at h with hupper hlower hdigit hfirst hsecond
  · obtain ⟨hlow, hhigh⟩ := toNat_of_isUpper hupper
    cases h
    refine ⟨by omega, ?_⟩
    rw [symbol, if_pos (by omega), ofNat_add_sub hlow]
  · obtain ⟨hlow, hhigh⟩ := toNat_of_isLower hlower
    cases h
    refine ⟨by omega, ?_⟩
    rw [symbol, if_neg (by omega), if_pos (by omega), Nat.add_sub_cancel, ofNat_add_sub hlow]
  · obtain ⟨hlow, hhigh⟩ := toNat_of_isDigit hdigit
    cases h
    refine ⟨by omega, ?_⟩
    rw [symbol, if_neg (by omega), if_neg (by omega), if_pos (by omega), Nat.add_sub_cancel,
      ofNat_add_sub hlow]
  · cases h
    exact ⟨by omega, hfirst⟩
  · cases h
    exact ⟨by omega, hsecond⟩

/-! ## Groups -/

/-- The four values of three bytes. -/
theorem triple_values (x y z : UInt8) :
    let n := (x.toNat * 256 + y.toNat) * 256 + z.toNat
    triple (n / 262144) (n / 4096 % 64) (n / 64 % 64) (n % 64) = [x, y, z] := by
  have hx := x.toNat_lt
  have hy := y.toNat_lt
  have hz := z.toNat_lt
  simp only [triple, List.cons.injEq, and_true, ← UInt8.toNat_inj, UInt8.toNat_ofNat']
  omega

section Values

variable {p q r s : Nat} (hp : p < 64) (hq : q < 64)
include hp hq

theorem encode_triple (hr : r < 64) (hs : s < 64) (rest : List UInt8) :
    encode a (triple p q r s ++ rest)
      = a.symbol p :: a.symbol q :: a.symbol r :: a.symbol s :: encode a rest := by
  simp only [triple, List.cons_append, List.nil_append, encode, UInt8.toNat_ofNat']
  congr 5 <;> omega

theorem encode_take_one (hlast : q % 16 = 0) :
    encode a ((triple p q 0 0).take 1) = [a.symbol p, a.symbol q, filler, filler] := by
  simp only [triple, List.take_succ_cons, List.take_zero, encode, UInt8.toNat_ofNat']
  congr 3 <;> omega

theorem encode_take_two (hr : r < 64) (hlast : r % 4 = 0) :
    encode a ((triple p q r 0).take 2) = [a.symbol p, a.symbol q, a.symbol r, filler] := by
  simp only [triple, List.take_succ_cons, List.take_zero, encode, UInt8.toNat_ofNat']
  congr 4 <;> omega

/-- A full group is read by itself, whether it is the last or not. -/
theorem decode?_symbols (hr : r < 64) (hs : s < 64) (rest : List Char) :
    decode? a (a.symbol p :: a.symbol q :: a.symbol r :: a.symbol s :: rest)
      = (decode? a rest).map (triple p q r s ++ ·) := by
  have hfull := a.symbol_ne_filler hs
  have hfull' := a.symbol_ne_filler hr
  cases rest with
  | nil =>
      simp only [decode?, lastGroup?, a.value?_symbol, hp, hq, hr, hs, hfull, and_false, if_false,
        Option.bind_eq_bind, Option.bind_some, Option.map_some, List.append_nil]
  | cons c rest =>
      simp only [decode?, a.value?_symbol, hp, hq, hr, hs, Option.bind_eq_bind, Option.bind_some]
      cases decode? a (c :: rest) <;> rfl

end Values

theorem encode_of_lastGroup? {w x y z : Char} {bs : List UInt8}
    (h : lastGroup? a w x y z = some bs) : encode a bs = [w, x, y, z] := by
  simp only [lastGroup?, Option.bind_eq_bind, Option.bind_eq_some_iff, Alphabet.value?_eq_some] at h
  obtain ⟨p, ⟨hp, rfl⟩, q, ⟨hq, rfl⟩, h⟩ := h
  split at h
  · next hone =>
      obtain ⟨rfl, rfl⟩ := hone
      split_ifs at h with hlast
      cases h
      exact encode_take_one hp hq hlast
  · simp only [Option.bind_eq_some_iff, Alphabet.value?_eq_some] at h
    obtain ⟨r, ⟨hr, rfl⟩, h⟩ := h
    split at h
    · next htwo =>
        subst htwo
        split_ifs at h with hlast
        cases h
        exact encode_take_two hp hq hr hlast
    · simp only [Option.bind_eq_some_iff, Alphabet.value?_eq_some] at h
      obtain ⟨s, ⟨hs, rfl⟩, h⟩ := h
      cases h
      simpa only [List.append_nil, encode] using encode_triple hp hq hr hs []

/-! ## Sequences -/

theorem encode_of_decode? {cs : List Char} {bs : List UInt8} (h : decode? a cs = some bs) :
    encode a bs = cs := by
  induction cs using decode?.induct generalizing bs with
  | case1 =>
      cases h
      rfl
  | case2 w x y z => exact encode_of_lastGroup? h
  | case3 w x y z rest hrest ih =>
      rw [decode?] at h
      · simp only [Option.bind_eq_bind, Option.bind_eq_some_iff, Alphabet.value?_eq_some] at h
        obtain ⟨p, ⟨hp, rfl⟩, q, ⟨hq, rfl⟩, r, ⟨hr, rfl⟩, s, ⟨hs, rfl⟩, bytes, hbytes, h⟩ := h
        cases h
        rw [encode_triple hp hq hr hs, ih hbytes]
      · exact hrest
  | case4 => simp [decode?] at h

theorem decode?_encode (bs : List UInt8) : decode? a (encode a bs) = some bs := by
  induction bs using encode.induct with
  | case1 => rfl
  | case2 x =>
      have hx := x.toNat_lt
      have hp := a.value?_symbol (n := x.toNat / 4) (by omega)
      have hq := a.value?_symbol (n := x.toNat % 4 * 16) (by omega)
      have hlast : x.toNat % 4 * 16 % 16 = 0 := by omega
      simp only [encode, decode?, lastGroup?, hp, hq, Option.bind_eq_bind, Option.bind_some,
        and_self, if_true, hlast, triple, List.take_succ_cons, List.take_zero, Option.some.injEq,
        List.cons.injEq, and_true, ← UInt8.toNat_inj, UInt8.toNat_ofNat']
      omega
  | case3 x y =>
      have hx := x.toNat_lt
      have hy := y.toNat_lt
      have hr : (x.toNat * 256 + y.toNat) % 16 * 4 < 64 := by omega
      have hlast : (x.toNat * 256 + y.toNat) % 16 * 4 % 4 = 0 := by omega
      have hp := a.value?_symbol (n := (x.toNat * 256 + y.toNat) / 1024) (by omega)
      have hq := a.value?_symbol (n := (x.toNat * 256 + y.toNat) / 16 % 64) (by omega)
      simp only [encode, decode?, lastGroup?, hp, hq, a.value?_symbol hr, a.symbol_ne_filler hr,
        Option.bind_eq_bind, Option.bind_some, if_false, if_true, hlast, triple,
        List.take_succ_cons, List.take_zero, Option.some.injEq, List.cons.injEq, and_true,
        ← UInt8.toNat_inj, UInt8.toNat_ofNat']
      omega
  | case4 x y z rest ih =>
      have hx := x.toNat_lt
      have hy := y.toNat_lt
      have hz := z.toNat_lt
      rw [encode, decode?_symbols (by omega) (by omega) (by omega) (by omega), ih, triple_values]
      rfl

/-- **A text in base64 is read as the bytes whose written form it is.** -/
theorem decode?_eq_some {cs : List Char} {bs : List UInt8} :
    decode? a cs = some bs ↔ cs = encode a bs :=
  ⟨fun h => (encode_of_decode? h).symm, fun h => h ▸ decode?_encode bs⟩

theorem encode_inj {bs bs' : List UInt8} : encode a bs = encode a bs' ↔ bs = bs' := by
  refine ⟨fun h => ?_, congrArg _⟩
  have hread := decode?_encode (a := a) bs
  rw [h, decode?_encode] at hread
  exact (Option.some.inj hread).symm

/-! ## Characters -/

/-- What is written holds nothing but symbols and the filler. -/
theorem mem_encode {c : Char} {bs : List UInt8} (h : c ∈ encode a bs) :
    c = filler ∨ ∃ n < 64, c = a.symbol n := by
  induction bs using encode.induct with
  | case1 => cases h
  | case2 x =>
      have hx := x.toNat_lt
      simp only [encode, List.mem_cons, List.not_mem_nil, or_false] at h
      rcases h with h | h | h | h
      · exact .inr ⟨_, by omega, h⟩
      · exact .inr ⟨_, by omega, h⟩
      · exact .inl h
      · exact .inl h
  | case3 x y =>
      have hx := x.toNat_lt
      have hy := y.toNat_lt
      simp only [encode, List.mem_cons, List.not_mem_nil, or_false] at h
      rcases h with h | h | h | h
      · exact .inr ⟨_, by omega, h⟩
      · exact .inr ⟨_, by omega, h⟩
      · exact .inr ⟨_, by omega, h⟩
      · exact .inl h
  | case4 x y z rest ih =>
      have hx := x.toNat_lt
      have hy := y.toNat_lt
      have hz := z.toNat_lt
      simp only [encode, List.mem_cons] at h
      rcases h with h | h | h | h | h
      · exact .inr ⟨_, by omega, h⟩
      · exact .inr ⟨_, by omega, h⟩
      · exact .inr ⟨_, by omega, h⟩
      · exact .inr ⟨_, by omega, h⟩
      · exact ih h

end ImagePull.Text.Base64
