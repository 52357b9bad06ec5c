import ImagePull.Text.Utf8
import Mathlib.Algebra.Group.Nat.Defs
import Mathlib.Tactic.SplitIfs

/-!
# Laws of UTF-8

What the bytes of a text keep of its characters: every character has bytes, a character below
U+0080 is its own byte and no other character has bytes below 0x80, and texts are in the same
order as their bytes (`bytes_lt`). Nothing is lost, as the bytes of a text are read as that text
(`text?_bytes`), and no other bytes are read as it (`decode_eq_ok`).
-/

namespace ImagePull.Text

/-! ## Runs of characters -/

theorem toNat_of_range {c : Char} {low high : UInt32} (h : low ≤ c.val ∧ c.val ≤ high) :
    low.toNat ≤ c.toNat ∧ c.toNat ≤ high.toNat :=
  ⟨UInt32.le_iff_toNat_le.mp h.1, UInt32.le_iff_toNat_le.mp h.2⟩

theorem toNat_of_isUpper {c : Char} (h : c.isUpper = true) : 65 ≤ c.toNat ∧ c.toNat ≤ 90 :=
  toNat_of_range (of_decide_eq_true h)

theorem toNat_of_isLower {c : Char} (h : c.isLower = true) : 97 ≤ c.toNat ∧ c.toNat ≤ 122 :=
  toNat_of_range ((Bool.and_eq_true_iff.mp h).imp of_decide_eq_true of_decide_eq_true)

theorem toNat_of_isDigit {c : Char} (h : c.isDigit = true) : 48 ≤ c.toNat ∧ c.toNat ≤ 57 :=
  toNat_of_range ((Bool.and_eq_true_iff.mp h).imp of_decide_eq_true of_decide_eq_true)

theorem toNat_of_isAlphanum {c : Char} (h : c.isAlphanum = true) :
    48 ≤ c.toNat ∧ c.toNat ≤ 122 := by
  have halphanum : c.isAlphanum = (c.isUpper || c.isLower || c.isDigit) := rfl
  rw [halphanum, Bool.or_eq_true, Bool.or_eq_true] at h
  rcases h with (hupper | hlower) | hdigit
  · have := toNat_of_isUpper hupper
    omega
  · have := toNat_of_isLower hlower
    omega
  · have := toNat_of_isDigit hdigit
    omega

namespace Utf8

/-! ## Bytes of a character -/

theorem toNat_lt (c : Char) : c.toNat < 0x110000 := by
  have hvalid := c.valid
  simp only [UInt32.isValidChar, Nat.isValidChar] at hvalid
  show c.val.toNat < 0x110000
  omega

theorem encodeChar_ne_nil (c : Char) : encodeChar c ≠ [] := by
  simp only [encodeChar]
  split_ifs <;> simp

theorem encodeChar_of_lt {c : Char} (h : c.toNat < 0x80) :
    encodeChar c = [UInt8.ofNat c.toNat] := by
  simp only [encodeChar, if_pos h]

/-- Outside ASCII every byte has its highest bit set. -/
theorem le_of_mem_encodeChar {c : Char} (h : 0x80 ≤ c.toNat) {b : UInt8}
    (hb : b ∈ encodeChar c) : 0x80 ≤ b.toNat := by
  have hbound := toNat_lt c
  simp only [encodeChar, if_neg (Nat.not_lt.mpr h)] at hb
  split_ifs at hb with h2 h3 <;> simp only [List.mem_cons, List.not_mem_nil, or_false] at hb
  · rcases hb with rfl | rfl <;> rw [UInt8.toNat_ofNat'] <;> omega
  · rcases hb with rfl | rfl | rfl <;> rw [UInt8.toNat_ofNat'] <;> omega
  · rcases hb with rfl | rfl | rfl | rfl <;> rw [UInt8.toNat_ofNat'] <;> omega

theorem encode_cons (c : Char) (cs : List Char) : encode (c :: cs) = encodeChar c ++ encode cs :=
  List.flatMap_cons

theorem encode_append (xs ys : List Char) : encode (xs ++ ys) = encode xs ++ encode ys :=
  List.flatMap_append

theorem encode_of_forall_lt {cs : List Char} (h : ∀ c ∈ cs, c.toNat < 0x80) :
    encode cs = cs.map fun c => UInt8.ofNat c.toNat := by
  induction cs with
  | nil => rfl
  | cons c rest ih =>
      obtain ⟨hc, hrest⟩ := List.forall_mem_cons.mp h
      rw [encode_cons, encodeChar_of_lt hc, ih hrest]
      rfl

/-! ## Order -/

/-- A smaller character has smaller bytes, whatever follows both. -/
theorem encodeChar_lt {c d : Char} (h : c < d) (xs ys : List UInt8) :
    encodeChar c ++ xs < encodeChar d ++ ys := by
  have hlt : c.toNat < d.toNat := h
  have hbound := toNat_lt d
  -- the digits to base 64 are nested quotients
  have hdigits (n : Nat) : n / 64 / 64 = n / 4096 ∧ n / 4096 / 64 = n / 262144 := by omega
  obtain ⟨hc, hc'⟩ := hdigits c.toNat
  obtain ⟨hd, hd'⟩ := hdigits d.toNat
  simp only [encodeChar]
  split_ifs <;>
    simp (disch := omega) only [List.cons_append, List.nil_append, List.cons_lt_cons_iff,
      UInt8.lt_iff_toNat_lt, ← UInt8.toNat_inj, UInt8.toNat_ofNat', Nat.mod_eq_of_lt] <;>
    omega

/-- Texts are ordered as their characters' bytes are. -/
theorem encode_lt {xs ys : List Char} (h : xs < ys) : encode xs < encode ys := by
  induction h with
  | @nil d ys =>
      rw [encode_cons]
      cases hd : encodeChar d with
      | nil => exact absurd hd (encodeChar_ne_nil d)
      | cons b rest => exact List.nil_lt_cons b _
  | @rel c xs d ys hcd =>
      rw [encode_cons, encode_cons]
      exact encodeChar_lt hcd _ _
  | @cons c xs ys hlt ih =>
      rw [encode_cons, encode_cons]
      exact List.append_left_lt ih

/-- **Texts are in the same order as their bytes.** -/
theorem bytes_lt {s t : String} (h : s < t) : bytes s < bytes t :=
  encode_lt (String.lt_iff.mp h)

/-! ## Reading back -/

/-- A byte that continues a character adds its six bits. -/
theorem next_of_lt {s : Begun} {d : Nat} (hd : d < 0x40) (hlow : s.low ≤ 0x80 + d)
    (hhigh : 0x80 + d ≤ s.high) :
    next s (UInt8.ofNat (0x80 + d))
      = if s.lacking ≤ 1 then .whole (Char.ofNat (0x40 * s.bits + d))
        else .begun ⟨s.seen + 1, s.lacking - 1, 0x80, 0xBF, 0x40 * s.bits + d⟩ := by
  have hbyte : (UInt8.ofNat (0x80 + d)).toNat = 0x80 + d := by
    rw [UInt8.toNat_ofNat']
    omega
  have hwithin : ¬(0x80 + d < s.low ∨ s.high < 0x80 + d) := by omega
  simp only [next, hbyte, hwithin, Bool.or_eq_true, decide_eq_true_eq, if_false,
    Nat.add_sub_cancel_left]

/-- The first byte of a character of two bytes. -/
theorem first_of_two {n : Nat} (h : 0x80 ≤ n) (h' : n < 0x800) :
    first (UInt8.ofNat (0xC0 + n / 0x40)) = .begun ⟨1, 1, 0x80, 0xBF, n / 0x40⟩ := by
  have hbyte : (UInt8.ofNat (0xC0 + n / 0x40)).toNat = 0xC0 + n / 0x40 := by
    rw [UInt8.toNat_ofNat']
    omega
  simp only [first, hbyte]
  rw [if_neg (by omega), if_neg (by omega), if_pos (by omega), Nat.add_sub_cancel_left]

/-- The first byte of a character of three bytes leaves room for the second. -/
theorem first_of_three {n : Nat} (h : 0x800 ≤ n) (h' : n < 0x10000)
    (hvalid : n < 0xD800 ∨ 0xDFFF < n) :
    ∃ low high, first (UInt8.ofNat (0xE0 + n / 0x1000)) = .begun ⟨1, 2, low, high, n / 0x1000⟩
      ∧ low ≤ 0x80 + n / 0x40 % 0x40 ∧ 0x80 + n / 0x40 % 0x40 ≤ high := by
  have hbyte : (UInt8.ofNat (0xE0 + n / 0x1000)).toNat = 0xE0 + n / 0x1000 := by
    rw [UInt8.toNat_ofNat']
    omega
  simp only [first, hbyte]
  rw [if_neg (by omega), if_neg (by omega), if_neg (by omega)]
  split_ifs with he0 hed
  · have hbits : n / 0x1000 = 0 := by omega
    rw [hbits]
    exact ⟨0xA0, 0xBF, rfl, by omega, by omega⟩
  · have hbits : n / 0x1000 = 0xD := by omega
    rw [hbits]
    exact ⟨0x80, 0x9F, rfl, by omega, by omega⟩
  · rw [Nat.add_sub_cancel_left]
    exact ⟨0x80, 0xBF, rfl, by omega, by omega⟩
  all_goals omega

/-- The first byte of a character of four bytes leaves room for the second. -/
theorem first_of_four {n : Nat} (h : 0x10000 ≤ n) (h' : n < 0x110000) :
    ∃ low high, first (UInt8.ofNat (0xF0 + n / 0x40000)) = .begun ⟨1, 3, low, high, n / 0x40000⟩
      ∧ low ≤ 0x80 + n / 0x1000 % 0x40 ∧ 0x80 + n / 0x1000 % 0x40 ≤ high := by
  have hbyte : (UInt8.ofNat (0xF0 + n / 0x40000)).toNat = 0xF0 + n / 0x40000 := by
    rw [UInt8.toNat_ofNat']
    omega
  simp only [first, hbyte]
  rw [if_neg (by omega), if_neg (by omega), if_neg (by omega), if_neg (by omega),
    if_neg (by omega), if_neg (by omega)]
  split_ifs with hf0 hf4 hlast
  · have hbits : n / 0x40000 = 0 := by omega
    rw [hbits]
    exact ⟨0x90, 0xBF, rfl, by omega, by omega⟩
  · rw [Nat.add_sub_cancel_left]
    exact ⟨0x80, 0xBF, rfl, by omega, by omega⟩
  · have hbits : n / 0x40000 = 4 := by omega
    rw [hbits]
    exact ⟨0x80, 0x8F, rfl, by omega, by omega⟩
  · omega

/-- **The bytes of a character are read as that character**, whatever follows. -/
theorem decodeFrom_encodeChar (read : List Char) (position : Nat) (c : Char)
    (rest : List UInt8) :
    decodeFrom read position none (encodeChar c ++ rest)
      = decodeFrom (c :: read) (position + (encodeChar c).length) none rest := by
  have hbound := toNat_lt c
  have hvalid : c.toNat < 0xD800 ∨ 0xDFFF < c.toNat := by
    have := c.valid
    simp only [UInt32.isValidChar, Nat.isValidChar] at this
    show c.val.toNat < 0xD800 ∨ 0xDFFF < c.val.toNat
    omega
  simp only [encodeChar]
  split_ifs with h1 h2 h3
  · have hfirst : first (UInt8.ofNat c.toNat) = .whole c := by
      have hbyte : (UInt8.ofNat c.toNat).toNat = c.toNat := by
        rw [UInt8.toNat_ofNat']
        omega
      simp only [first, hbyte, if_pos h1, Char.ofNat_toNat]
    simp only [List.cons_append, List.nil_append, decodeFrom, hfirst, List.length_singleton]
  · have hbits : 0x40 * (c.toNat / 0x40) + c.toNat % 0x40 = c.toNat := by omega
    simp only [List.cons_append, List.nil_append, decodeFrom, first_of_two (by omega) h2]
    rw [next_of_lt (by omega) (by simp) (by simp; omega)]
    simp only [if_pos (Nat.le_refl 1), hbits, Char.ofNat_toNat]
    rfl
  · obtain ⟨low, high, hfirst, hlow, hhigh⟩ := first_of_three (by omega) h3 hvalid
    have hbits : 0x40 * (0x40 * (c.toNat / 0x1000) + c.toNat / 0x40 % 0x40) + c.toNat % 0x40
        = c.toNat := by omega
    simp only [List.cons_append, List.nil_append, decodeFrom, hfirst]
    rw [next_of_lt (by omega) hlow hhigh]
    simp only [Nat.reduceLeDiff, if_false]
    rw [next_of_lt (by omega) (by simp) (by simp; omega)]
    simp only [Nat.reduceSub, if_pos (Nat.le_refl 1), hbits, Char.ofNat_toNat]
    rfl
  · obtain ⟨low, high, hfirst, hlow, hhigh⟩ := first_of_four (by omega) hbound
    have hbits : 0x40 * (0x40 * (0x40 * (c.toNat / 0x40000) + c.toNat / 0x1000 % 0x40)
        + c.toNat / 0x40 % 0x40) + c.toNat % 0x40 = c.toNat := by omega
    simp only [List.cons_append, List.nil_append, decodeFrom, hfirst]
    rw [next_of_lt (by omega) hlow hhigh]
    simp only [Nat.reduceLeDiff, if_false]
    rw [next_of_lt (by omega) (by simp) (by simp; omega)]
    simp only [Nat.reduceSub, Nat.reduceLeDiff, if_false]
    rw [next_of_lt (by omega) (by simp) (by simp; omega)]
    simp only [Nat.reduceSub, if_pos (Nat.le_refl 1), hbits, Char.ofNat_toNat]
    rfl

theorem decodeFrom_encode (read : List Char) (position : Nat) (cs : List Char) :
    decodeFrom read position none (encode cs) = .ok (read.reverse ++ cs) := by
  induction cs generalizing read position with
  | nil => simp [encode, decodeFrom]
  | cons c cs ih =>
      rw [encode_cons, decodeFrom_encodeChar, ih, List.reverse_cons, List.append_assoc,
        List.singleton_append]

/-- **The bytes of a text are read as that text.** -/
theorem text?_bytes (s : String) : text? (bytes s) = some s := by
  rw [text?, decode, bytes, decodeFrom_encode, List.reverse_nil, List.nil_append]
  exact congrArg some String.ofList_toList

/-- Where nothing is wrong, nothing is replaced. -/
theorem decodeLossyFrom_of_decodeFrom {read cs : List Char} {position : Nat}
    {state : Option Begun} {bs : List UInt8}
    (h : decodeFrom read position state bs = .ok cs) : decodeLossyFrom read state bs = cs := by
  induction bs generalizing read position state with
  | nil =>
      cases state with
      | none => exact Except.ok.inj h
      | some s => cases h
  | cons b rest ih =>
      cases state with
      | none =>
          cases hb : first b with
          | wrong => simp [decodeFrom, hb] at h
          | _ =>
              simp only [decodeFrom, hb] at h
              simp only [decodeLossyFrom, hb]
              exact ih h
      | some s =>
          cases hb : next s b with
          | wrong => simp [decodeFrom, hb] at h
          | _ =>
              simp only [decodeFrom, hb] at h
              simp only [decodeLossyFrom, hb]
              exact ih h

theorem decodeLossy_bytes (s : String) : decodeLossy (bytes s) = s := by
  rw [decodeLossy, bytes, decodeLossyFrom_of_decodeFrom (decodeFrom_encode [] 0 s.toList)]
  exact String.ofList_toList

theorem bytes_inj {s t : String} : bytes s = bytes t ↔ s = t := by
  refine ⟨fun h => ?_, congrArg bytes⟩
  have hread := text?_bytes s
  rw [h, text?_bytes] at hread
  exact (Option.some.inj hread).symm

/-! ## Nothing else is read -/

/-- The last bytes of a character, as many as asked for. -/
def tail (n : Nat) : Nat → List UInt8
  | 0 => []
  | k + 1 => UInt8.ofNat (0x80 + n / 0x40 ^ k % 0x40) :: tail n k

/-- These bytes begin every character whose first bits have been read, and the range for the next
byte keeps out what is no character and what has a shorter form. -/
structure Begins (s : Begun) (bytes : List UInt8) : Prop where
  lacking : 1 ≤ s.lacking
  low : 0x80 ≤ s.low
  high : s.high ≤ 0xBF
  encodeChar : ∀ n, n / 0x40 ^ s.lacking = s.bits →
    s.low ≤ 0x80 + n / 0x40 ^ (s.lacking - 1) % 0x40 →
    0x80 + n / 0x40 ^ (s.lacking - 1) % 0x40 ≤ s.high →
    encodeChar (Char.ofNat n) = bytes ++ tail n s.lacking

theorem toNat_ofNat {n : Nat} (h : n < 0xD800 ∨ 0xDFFF < n ∧ n < 0x110000) :
    (Char.ofNat n).toNat = n := by
  rw [Char.ofNat, dif_pos h]
  rfl

theorem encodeChar_of_first {b : UInt8} {c : Char} (h : first b = .whole c) :
    encodeChar c = [b] := by
  simp only [first] at h
  split_ifs at h with hlt
  cases h
  rw [encodeChar_of_lt (by rwa [toNat_ofNat (by omega)]), toNat_ofNat (by omega), UInt8.ofNat_toNat]

theorem encodeChar_of_two {n : Nat} (h : 0x80 ≤ n) (h' : n < 0x800) :
    encodeChar (Char.ofNat n) = UInt8.ofNat (0xC0 + n / 0x40) :: tail n 1 := by
  have hn : (Char.ofNat n).toNat = n := toNat_ofNat (by omega)
  simp only [encodeChar, hn, if_neg (Nat.not_lt.mpr h), if_pos h', tail, Nat.pow_zero, Nat.div_one]

theorem encodeChar_of_three {n : Nat} (h : 0x800 ≤ n) (h' : n < 0x10000)
    (hvalid : n < 0xD800 ∨ 0xDFFF < n) :
    encodeChar (Char.ofNat n) = UInt8.ofNat (0xE0 + n / 0x1000) :: tail n 2 := by
  have hn : (Char.ofNat n).toNat = n := toNat_ofNat (by omega)
  have hnot : ¬n < 0x80 := by omega
  simp only [encodeChar, hn, if_neg hnot, if_neg (Nat.not_lt.mpr h), if_pos h', tail, Nat.pow_zero,
    Nat.pow_one, Nat.div_one]

theorem encodeChar_of_four {n : Nat} (h : 0x10000 ≤ n) (h' : n < 0x110000) :
    encodeChar (Char.ofNat n) = UInt8.ofNat (0xF0 + n / 0x40000) :: tail n 3 := by
  have hn : (Char.ofNat n).toNat = n := toNat_ofNat (by omega)
  have hnot : ¬n < 0x80 := by omega
  have hnot' : ¬n < 0x800 := by omega
  simp only [encodeChar, hn, if_neg hnot, if_neg hnot', if_neg (Nat.not_lt.mpr h), tail,
    Nat.reducePow, Nat.div_one]

/-- The first byte of a character, above which its bits stand. -/
theorem ofNat_add_of_sub {b : UInt8} {mark bits : Nat} (hmark : mark ≤ b.toNat)
    (h : bits = b.toNat - mark) : UInt8.ofNat (mark + bits) = b := by
  rw [h, Nat.add_sub_cancel' hmark, UInt8.ofNat_toNat]

variable {b : UInt8} {low high bits : Nat}

theorem begins_of_two (h : 0xC2 ≤ b.toNat) (h' : b.toNat < 0xE0) :
    Begins ⟨1, 1, 0x80, 0xBF, b.toNat - 0xC0⟩ [b] := by
  refine ⟨Nat.le_refl 1, Nat.le_refl _, Nat.le_refl _, fun n hn _ _ => ?_⟩
  simp only [Nat.pow_one] at hn
  rw [encodeChar_of_two (by omega) (by omega), ofNat_add_of_sub (by omega) hn]
  rfl

/-- After `E0` there is no shorter form, and after `ED` no surrogate. -/
theorem begins_of_three (h : 0xE0 ≤ b.toNat) (h' : b.toNat < 0xF0) (hlow : 0x80 ≤ low)
    (hhigh : high ≤ 0xBF) (hshort : b.toNat = 0xE0 → 0xA0 ≤ low)
    (hsurrogate : b.toNat = 0xED → high ≤ 0x9F) (hbits : bits = b.toNat - 0xE0) :
    Begins ⟨1, 2, low, high, bits⟩ [b] := by
  refine ⟨by simp, hlow, hhigh, fun n hn hfirst hlast => ?_⟩
  simp only [Nat.reducePow, Nat.reduceSub] at hn hfirst hlast
  rw [encodeChar_of_three (by omega) (by omega) (by omega),
    ofNat_add_of_sub (by omega) (hn.trans hbits)]
  rfl

/-- After `F0` there is no shorter form, and after `F4` nothing above U+10FFFF. -/
theorem begins_of_four (h : 0xF0 ≤ b.toNat) (h' : b.toNat ≤ 0xF4) (hlow : 0x80 ≤ low)
    (hhigh : high ≤ 0xBF) (hshort : b.toNat = 0xF0 → 0x90 ≤ low)
    (hlarge : b.toNat = 0xF4 → high ≤ 0x8F) (hbits : bits = b.toNat - 0xF0) :
    Begins ⟨1, 3, low, high, bits⟩ [b] := by
  refine ⟨by simp, hlow, hhigh, fun n hn hfirst hlast => ?_⟩
  simp only [Nat.reducePow, Nat.reduceSub] at hn hfirst hlast
  rw [encodeChar_of_four (by omega) (by omega),
    ofNat_add_of_sub (by omega) (hn.trans hbits)]
  rfl

theorem begins_of_first {s : Begun} (h : first b = .begun s) : Begins s [b] := by
  simp only [first] at h
  split_ifs at h <;> cases h
  · exact begins_of_two (by omega) (by omega)
  · apply begins_of_three <;> omega
  · apply begins_of_three <;> omega
  · apply begins_of_three <;> omega
  · apply begins_of_four <;> omega
  · apply begins_of_four <;> omega
  · apply begins_of_four <;> omega

/-- The byte after a beginning is the next of the character's last ones. -/
theorem tail_of_next {k n bits : Nat} {b : UInt8} (hb : 0x80 ≤ b.toNat) (hb' : b.toNat ≤ 0xBF)
    (hn : n / 0x40 ^ k = 0x40 * bits + (b.toNat - 0x80)) :
    n / 0x40 ^ (k + 1) = bits ∧ 0x80 + n / 0x40 ^ k % 0x40 = b.toNat
      ∧ tail n (k + 1) = b :: tail n k := by
  have hbyte : 0x80 + n / 0x40 ^ k % 0x40 = b.toNat := by omega
  refine ⟨?_, hbyte, ?_⟩
  · rw [Nat.pow_succ, ← Nat.div_div_eq_div_mul, hn]
    omega
  · rw [tail, hbyte, UInt8.ofNat_toNat]

theorem Begins.of_next {s s' : Begun} {bytes : List UInt8} {b : UInt8} (h : Begins s bytes)
    (hnext : next s b = .begun s') : Begins s' (bytes ++ [b]) := by
  obtain ⟨hlacking, hlow, hhigh, hchar⟩ := h
  simp only [next, Bool.or_eq_true, decide_eq_true_eq] at hnext
  split_ifs at hnext with hrange hlast
  cases hnext
  obtain ⟨k, hk⟩ : ∃ k, s.lacking = k + 2 := ⟨s.lacking - 2, by omega⟩
  refine ⟨by simp only; omega, Nat.le_refl _, Nat.le_refl _, fun n hbits _ _ => ?_⟩
  simp only [hk, show k + 2 - 1 = k + 1 from rfl] at hchar hbits ⊢
  obtain ⟨hbits, hbyte, htail⟩ := tail_of_next (by omega) (by omega) hbits
  rw [hchar n hbits (by omega) (by omega), htail, List.append_assoc, List.singleton_append]

theorem Begins.encodeChar_of_next {s : Begun} {bytes : List UInt8} {b : UInt8} {c : Char}
    (h : Begins s bytes) (hnext : next s b = .whole c) : Utf8.encodeChar c = bytes ++ [b] := by
  obtain ⟨hlacking, hlow, hhigh, hchar⟩ := h
  simp only [next, Bool.or_eq_true, decide_eq_true_eq] at hnext
  split_ifs at hnext with hrange hlast
  rw [← Step.whole.inj hnext]
  have hk : s.lacking = 0 + 1 := by omega
  simp only [hk, Nat.add_sub_cancel] at hchar
  have hn : (0x40 * s.bits + (b.toNat - 0x80)) / 0x40 ^ 0 = 0x40 * s.bits + (b.toNat - 0x80) := by
    simp
  obtain ⟨hbits, hbyte, htail⟩ := tail_of_next (by omega) (by omega) hn
  rw [hchar _ hbits (by omega) (by omega), htail, tail]

/-- These bytes have been read of a character, if one has been begun. -/
def Pending : Option Begun → List UInt8 → Prop
  | none, bytes => bytes = []
  | some s, bytes => Begins s bytes

theorem encode_of_decodeFrom {read cs : List Char} {position : Nat} {state : Option Begun}
    {bytes bs : List UInt8} (hstate : Pending state bytes)
    (h : decodeFrom read position state bs = .ok cs) :
    encode cs = encode read.reverse ++ bytes ++ bs := by
  have hnone : Pending none [] := rfl
  induction bs generalizing read position state bytes with
  | nil =>
      cases state with
      | none =>
          cases hstate
          cases h
          simp
      | some s => simp [decodeFrom] at h
  | cons b rest ih =>
      cases state with
      | none =>
          cases hstate
          cases hb : first b with
          | whole c =>
              simp only [decodeFrom, hb] at h
              rw [ih hnone h, List.reverse_cons, encode_append]
              simp [encode, encodeChar_of_first hb]
          | begun s =>
              simp only [decodeFrom, hb] at h
              have hbegun : Pending (some s) [b] := begins_of_first hb
              rw [ih hbegun h]
              simp
          | wrong => simp [decodeFrom, hb] at h
      | some s =>
          cases hb : next s b with
          | whole c =>
              simp only [decodeFrom, hb] at h
              rw [ih hnone h, List.reverse_cons, encode_append]
              simp [encode, hstate.encodeChar_of_next hb]
          | begun s' =>
              simp only [decodeFrom, hb] at h
              have hbegun : Pending (some s') (bytes ++ [b]) := hstate.of_next hb
              rw [ih hbegun h]
              simp
          | wrong => simp [decodeFrom, hb] at h

/-- **A byte sequence is read as the text whose bytes it is.** -/
theorem decode_eq_ok {bs : List UInt8} {cs : List Char} : decode bs = .ok cs ↔ bs = encode cs := by
  constructor
  · intro h
    have hnone : Pending none [] := rfl
    exact (encode_of_decodeFrom hnone h).symm
  · rintro rfl
    rw [decode, decodeFrom_encode, List.reverse_nil, List.nil_append]

end Utf8

end ImagePull.Text
