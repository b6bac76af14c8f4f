import Lexline.Text.Utf8

/-!
# Bytes and texts

The bytes of a text decode to the text, and no other bytes do.

* `follow_byte` — one continuation byte adds its six bits.
* `first_encodeChar` — **the bytes of a character are one piece**, whatever follows them.
* `decode_encode` — **the bytes of a text decode to the text**.
* `encodeChar_of_first` — a piece that is a character is made of the bytes of the character.
* `decode_eq_ok_iff` — **bytes decode to a text exactly if they are its bytes**.
-/

namespace Lexline.Text.Utf8

theorem toNat_toUInt8 {n : Nat} (h : n < 256) : n.toUInt8.toNat = n :=
  UInt8.toNat_ofNat_of_lt' h

/-- The code point of a character is below the surrogates, or above them and in range. -/
theorem toNat_cases (c : Char) : c.toNat < 0xd800 ∨ (0xdfff < c.toNat ∧ c.toNat < 0x110000) :=
  c.valid

theorem follow_byte {low high bits count n : Nat} {seen rest : List UInt8} (hn : n < 64)
    (hlow : low ≤ 0x80 + n) (hhigh : 0x80 + n ≤ high) :
    follow low high bits seen (count + 1) ((0x80 + n).toUInt8 :: rest) =
      follow 0x80 0xbf (64 * bits + n) ((0x80 + n).toUInt8 :: seen) count rest := by
  have hbyte : (0x80 + n).toUInt8.toNat = 0x80 + n := toNat_toUInt8 (by omega)
  rw [follow, hbyte, if_pos ⟨hlow, hhigh⟩, Nat.add_sub_cancel_left]

/-! ## What the start byte of a character announces -/

theorem lead?_two {n : Nat} (hlow : 0x80 ≤ n) (hhigh : n < 0x800) :
    lead? (0xc0 + n / 64).toUInt8 = some ⟨n / 64, 1, 0x80, 0xbf⟩ := by
  have hbyte : (0xc0 + n / 64).toUInt8.toNat = 0xc0 + n / 64 := toNat_toUInt8 (by omega)
  unfold lead?
  simp only [hbyte]
  rw [if_neg (by omega), if_pos (by omega), Nat.add_sub_cancel_left]

theorem lead?_three {n : Nat} (hlow : 0x800 ≤ n) (hhigh : n < 0x10000)
    (hscalar : n < 0xd800 ∨ 0xdfff < n) :
    ∃ low high, lead? (0xe0 + n / 4096).toUInt8 = some ⟨n / 4096, 2, low, high⟩ ∧
      low ≤ 0x80 + n / 64 % 64 ∧ 0x80 + n / 64 % 64 ≤ high := by
  have hbyte : (0xe0 + n / 4096).toUInt8.toNat = 0xe0 + n / 4096 := toNat_toUInt8 (by omega)
  unfold lead?
  simp only [hbyte]
  rw [if_neg (by omega), if_neg (by omega)]
  -- after 0xe0 the form could be overlong, and after 0xed it could be that of a surrogate
  by_cases hzero : n / 4096 = 0
  · rw [if_pos (by omega), hzero]
    exact ⟨_, _, rfl, by omega, by omega⟩
  rw [if_neg (by omega)]
  by_cases hthirteen : n / 4096 = 13
  · rw [if_pos (by omega), hthirteen]
    exact ⟨_, _, rfl, by omega, by omega⟩
  rw [if_neg (by omega), if_pos (by omega), Nat.add_sub_cancel_left]
  exact ⟨_, _, rfl, by omega, by omega⟩

theorem lead?_four {n : Nat} (hlow : 0x10000 ≤ n) (hhigh : n < 0x110000) :
    ∃ low high, lead? (0xf0 + n / 262144).toUInt8 = some ⟨n / 262144, 3, low, high⟩ ∧
      low ≤ 0x80 + n / 4096 % 64 ∧ 0x80 + n / 4096 % 64 ≤ high := by
  have hbyte : (0xf0 + n / 262144).toUInt8.toNat = 0xf0 + n / 262144 := toNat_toUInt8 (by omega)
  unfold lead?
  simp only [hbyte]
  rw [if_neg (by omega), if_neg (by omega), if_neg (by omega), if_neg (by omega),
    if_neg (by omega)]
  -- after 0xf0 the form could be overlong, and after 0xf4 out of range
  by_cases hzero : n / 262144 = 0
  · rw [if_pos (by omega), hzero]
    exact ⟨_, _, rfl, by omega, by omega⟩
  rw [if_neg (by omega)]
  by_cases hfour : n / 262144 = 4
  · rw [if_neg (by omega), if_pos (by omega), hfour]
    exact ⟨_, _, rfl, by omega, by omega⟩
  rw [if_pos (by omega), Nat.add_sub_cancel_left]
  exact ⟨_, _, rfl, by omega, by omega⟩

/-! ## Characters and texts -/

theorem first_of_lead {byte : UInt8} {bits count low high : Nat}
    (h : lead? byte = some ⟨bits, count, low, high⟩) (rest : List UInt8) :
    first byte rest = follow low high bits [byte] count rest := by
  have hbyte : ¬ byte.toNat < 0x80 := by
    intro hlt
    unfold lead? at h
    simp only at h
    rw [if_pos (by omega)] at h
    cases h
  unfold first
  rw [if_neg hbyte, h]

/-- **The bytes of a character are one piece**, whatever follows them. -/
theorem first_encodeChar (c : Char) (rest : List UInt8) :
    ∃ byte tail, encodeChar c = byte :: tail ∧ first byte (tail ++ rest) = (.scalar c, rest) := by
  have hscalar := toNat_cases c
  have hwhole : ∀ n, n = c.toNat → Char.ofNat n = c := by
    rintro n rfl
    exact Char.ofNat_toNat c
  unfold encodeChar
  simp only
  by_cases hone : c.toNat < 0x80
  · rw [if_pos hone]
    refine ⟨_, _, rfl, ?_⟩
    unfold first
    rw [toNat_toUInt8 (by omega), if_pos hone, hwhole _ rfl]
    rfl
  rw [if_neg hone]
  by_cases htwo : c.toNat < 0x800
  · rw [if_pos htwo]
    refine ⟨_, _, rfl, ?_⟩
    rw [first_of_lead (lead?_two (by omega) htwo)]
    show follow 0x80 0xbf (c.toNat / 64) _ 1 (_ :: rest) = _
    rw [follow_byte (by omega) (by omega) (by omega), follow, hwhole _ (by omega)]
  rw [if_neg htwo]
  by_cases hthree : c.toNat < 0x10000
  · rw [if_pos hthree]
    refine ⟨_, _, rfl, ?_⟩
    obtain ⟨low, high, hlead, hlow, hhigh⟩ := lead?_three (by omega) hthree (by omega)
    rw [first_of_lead hlead]
    show follow low high (c.toNat / 4096) _ 2 (_ :: _ :: rest) = _
    rw [follow_byte (by omega) hlow hhigh, follow_byte (by omega) (by omega) (by omega), follow,
      hwhole _ (by omega)]
  · rw [if_neg hthree]
    refine ⟨_, _, rfl, ?_⟩
    obtain ⟨low, high, hlead, hlow, hhigh⟩ := lead?_four (n := c.toNat) (by omega) (by omega)
    rw [first_of_lead hlead]
    show follow low high (c.toNat / 262144) _ 3 (_ :: _ :: _ :: rest) = _
    rw [follow_byte (by omega) hlow hhigh, follow_byte (by omega) (by omega) (by omega),
      follow_byte (by omega) (by omega) (by omega), follow, hwhole _ (by omega)]

theorem pieces_encode (text : List Char) : pieces (encode text) = text.map .scalar := by
  induction text with
  | nil =>
    unfold encode
    rw [List.flatMap_nil, pieces, List.map_nil]
  | cons c text ih =>
    obtain ⟨byte, tail, hbytes, hfirst⟩ := first_encodeChar c (encode text)
    have hencode : encode (c :: text) = byte :: (tail ++ encode text) := by
      rw [encode, List.flatMap_cons, hbytes]
      rfl
    rw [hencode, pieces, hfirst, List.map_cons, ih]

theorem assemble_scalars (offset : Nat) (text : List Char) :
    assemble offset (text.map .scalar) = .ok text := by
  induction text generalizing offset with
  | nil => rfl
  | cons c text ih => rw [List.map_cons, assemble, ih]

/-- **The bytes of a text decode to the text.** -/
theorem decode_encode (text : List Char) : decode (encode text) = .ok text := by
  rw [decode, pieces_encode, assemble_scalars]

/-! ## From bytes back to texts -/

theorem toNat_ofNat_scalar {n : Nat} (h : n < 0xd800 ∨ (0xdfff < n ∧ n < 0x110000)) :
    (Char.ofNat n).toNat = n := by
  have hvalid : n.isValidChar := h
  unfold Char.ofNat
  rw [dif_pos hvalid]
  rfl

theorem toUInt8_toNat (byte : UInt8) : byte.toNat.toUInt8 = byte :=
  UInt8.ofNat_toNat

theorem follow_zero {low high bits : Nat} {seen bytes after : List UInt8} {c : Char}
    (h : follow low high bits seen 0 bytes = (.scalar c, after)) :
    c = Char.ofNat bits ∧ bytes = after := by
  rw [follow] at h
  cases h
  exact ⟨rfl, rfl⟩

/-- A character that goes on has its next byte within the limits. -/
theorem follow_succ {low high bits count : Nat} {seen bytes after : List UInt8} {c : Char}
    (h : follow low high bits seen (count + 1) bytes = (.scalar c, after)) :
    ∃ n rest seen', bytes = n.toUInt8 :: rest ∧ low ≤ n ∧ n ≤ high ∧
      follow 0x80 0xbf (64 * bits + (n - 0x80)) seen' count rest = (.scalar c, after) := by
  cases bytes with
  | nil => cases h
  | cons byte rest =>
    rw [follow] at h
    split at h
    · rename_i hrange
      exact ⟨byte.toNat, rest, _, by rw [toUInt8_toNat], hrange.1, hrange.2, h⟩
    · cases h

/-- What a start byte announces: two, three or four bytes in all, and limits on the second one that
leave no room for overlong forms, surrogates and code points out of range. -/
theorem lead?_cases {byte : UInt8} {lead : Lead} (h : lead? byte = some lead) :
    (lead.count = 1 ∧ byte.toNat = 0xc0 + lead.bits ∧ 2 ≤ lead.bits ∧ lead.bits < 32 ∧
      lead.low = 0x80 ∧ lead.high = 0xbf) ∨
    (lead.count = 2 ∧ byte.toNat = 0xe0 + lead.bits ∧ lead.bits < 16 ∧ 0x80 ≤ lead.low ∧
      lead.high ≤ 0xbf ∧ 0xa0 ≤ 64 * lead.bits + lead.low ∧
      (lead.bits < 13 ∨ 13 < lead.bits ∨ lead.high ≤ 0x9f)) ∨
    (lead.count = 3 ∧ byte.toNat = 0xf0 + lead.bits ∧ 0x80 ≤ lead.low ∧ lead.high ≤ 0xbf ∧
      0x90 ≤ 64 * lead.bits + lead.low ∧ 64 * lead.bits + lead.high < 0x190) := by
  unfold lead? at h
  simp only at h
  split at h
  · cases h
  split at h
  · obtain rfl := Option.some.inj h
    refine Or.inl ⟨rfl, ?_, ?_, ?_, rfl, rfl⟩ <;> simp only <;> omega
  -- three bytes: after 0xe0 and after 0xed the second byte has limits of its own
  split at h
  · obtain rfl := Option.some.inj h
    refine Or.inr (Or.inl ⟨rfl, ?_, ?_, ?_, ?_, ?_, ?_⟩) <;> simp only <;> omega
  split at h
  · obtain rfl := Option.some.inj h
    refine Or.inr (Or.inl ⟨rfl, ?_, ?_, ?_, ?_, ?_, ?_⟩) <;> simp only <;> omega
  split at h
  · obtain rfl := Option.some.inj h
    refine Or.inr (Or.inl ⟨rfl, ?_, ?_, ?_, ?_, ?_, ?_⟩) <;> simp only <;> omega
  -- four bytes: the same after 0xf0 and after 0xf4
  split at h
  · obtain rfl := Option.some.inj h
    refine Or.inr (Or.inr ⟨rfl, ?_, ?_, ?_, ?_, ?_⟩) <;> simp only <;> omega
  split at h
  · obtain rfl := Option.some.inj h
    refine Or.inr (Or.inr ⟨rfl, ?_, ?_, ?_, ?_, ?_⟩) <;> simp only <;> omega
  split at h
  · obtain rfl := Option.some.inj h
    refine Or.inr (Or.inr ⟨rfl, ?_, ?_, ?_, ?_, ?_⟩) <;> simp only <;> omega
  · cases h

theorem encodeChar_two {n : Nat} (hlow : 0x80 ≤ n) (hhigh : n < 0x800) :
    encodeChar (Char.ofNat n) = [(0xc0 + n / 64).toUInt8, (0x80 + n % 64).toUInt8] := by
  unfold encodeChar
  rw [toNat_ofNat_scalar (by omega)]
  simp only
  rw [if_neg (by omega), if_pos hhigh]

theorem encodeChar_three {n : Nat} (hlow : 0x800 ≤ n) (hhigh : n < 0x10000)
    (hscalar : n < 0xd800 ∨ 0xdfff < n) : encodeChar (Char.ofNat n) =
      [(0xe0 + n / 4096).toUInt8, (0x80 + n / 64 % 64).toUInt8, (0x80 + n % 64).toUInt8] := by
  unfold encodeChar
  rw [toNat_ofNat_scalar (by omega)]
  simp only
  rw [if_neg (by omega), if_neg (by omega), if_pos hhigh]

theorem encodeChar_four {n : Nat} (hlow : 0x10000 ≤ n) (hhigh : n < 0x110000) :
    encodeChar (Char.ofNat n) = [(0xf0 + n / 262144).toUInt8, (0x80 + n / 4096 % 64).toUInt8,
      (0x80 + n / 64 % 64).toUInt8, (0x80 + n % 64).toUInt8] := by
  unfold encodeChar
  rw [toNat_ofNat_scalar (by omega)]
  simp only
  rw [if_neg (by omega), if_neg (by omega), if_neg (by omega)]

/-- **A piece that is a character** is made of the bytes of the character. -/
theorem encodeChar_of_first {byte : UInt8} {rest after : List UInt8} {c : Char}
    (h : first byte rest = (.scalar c, after)) : byte :: rest = encodeChar c ++ after := by
  have hbyte := toUInt8_toNat byte
  unfold first at h
  split at h
  · rename_i hascii
    obtain ⟨hpiece, rfl⟩ := Prod.mk.inj h
    obtain rfl := Piece.scalar.inj hpiece
    unfold encodeChar
    rw [toNat_ofNat_scalar (by omega)]
    simp only
    rw [if_pos hascii, hbyte]
    rfl
  · split at h
    · cases h
    · rename_i lead hlead
      rcases lead?_cases hlead with ⟨hcount, hstart, hmin, hmax, hlow, hhigh⟩ |
        ⟨hcount, hstart, hmax, hlow, hhigh, hlong, hpair⟩ |
        ⟨hcount, hstart, hlow, hhigh, hlong, hlast⟩
      · rw [hcount] at h
        obtain ⟨n, _, _, rfl, hn, hn', h⟩ := follow_succ h
        obtain ⟨hc, hafter⟩ := follow_zero h
        rw [hc, hafter, encodeChar_two (by omega) (by omega), ← hbyte, hstart]
        have hone : (64 * lead.bits + (n - 0x80)) / 64 = lead.bits := by omega
        have htwo : 0x80 + (64 * lead.bits + (n - 0x80)) % 64 = n := by omega
        rw [hone, htwo]
        rfl
      · rw [hcount] at h
        obtain ⟨n, _, _, rfl, hn, hn', h⟩ := follow_succ h
        obtain ⟨m, _, _, rfl, hm, hm', h⟩ := follow_succ h
        obtain ⟨hc, hafter⟩ := follow_zero h
        rw [hc, hafter, encodeChar_three (by omega) (by omega) (by omega), ← hbyte, hstart]
        generalize hpoint : 64 * (64 * lead.bits + (n - 0x80)) + (m - 0x80) = point
        have hone : point / 4096 = lead.bits := by omega
        have htwo : 0x80 + point / 64 % 64 = n := by omega
        have hthree : 0x80 + point % 64 = m := by omega
        rw [hone, htwo, hthree]
        rfl
      · rw [hcount] at h
        obtain ⟨n, _, _, rfl, hn, hn', h⟩ := follow_succ h
        obtain ⟨m, _, _, rfl, hm, hm', h⟩ := follow_succ h
        obtain ⟨l, _, _, rfl, hl, hl', h⟩ := follow_succ h
        obtain ⟨hc, hafter⟩ := follow_zero h
        rw [hc, hafter, encodeChar_four (by omega) (by omega), ← hbyte, hstart]
        generalize hpoint :
          64 * (64 * (64 * lead.bits + (n - 0x80)) + (m - 0x80)) + (l - 0x80) = point
        have hone : point / 262144 = lead.bits := by omega
        have htwo : 0x80 + point / 4096 % 64 = n := by omega
        have hthree : 0x80 + point / 64 % 64 = m := by omega
        have hfour : 0x80 + point % 64 = l := by omega
        rw [hone, htwo, hthree, hfour]
        rfl

/-- A text that the pieces of some bytes give is that of the bytes. -/
theorem eq_encode_of_assemble {offset : Nat} {bytes : List UInt8} {text : List Char}
    (h : assemble offset (pieces bytes) = .ok text) : bytes = encode text := by
  induction bytes using pieces.induct generalizing offset text with
  | case1 =>
    rw [pieces, assemble] at h
    cases h
    rfl
  | case2 byte rest ih =>
    rw [pieces] at h
    cases hfirst : first byte rest with
    | mk piece after =>
      rw [hfirst] at h ih
      simp only at h ih
      cases piece with
      | flawed => cases h
      | scalar c =>
        rw [assemble] at h
        split at h
        · cases h
        · rename_i tail htail
          cases h
          rw [encodeChar_of_first hfirst, ih htail]
          rfl

/-- **Bytes decode to a text exactly if they are its bytes.** -/
theorem decode_eq_ok_iff {bytes : List UInt8} {text : List Char} :
    decode bytes = .ok text ↔ bytes = encode text := by
  constructor
  · exact eq_encode_of_assemble
  · rintro rfl
    exact decode_encode text

theorem decodeLossy_encode (text : List Char) : decodeLossy (encode text) = text := by
  rw [decodeLossy, pieces_encode, List.map_map]
  exact List.map_id text

end Lexline.Text.Utf8
