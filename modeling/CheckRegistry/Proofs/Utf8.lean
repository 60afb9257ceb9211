import CheckRegistry.Declaration.File

/-! # Writing a text and reading it back

The bytes of a text are the bytes of its characters one after the other (`encode_eq`), and reading
starts afresh after each character.  So it is enough to read one character back, of one to four
bytes: its lead byte bounds the next one so that exactly the overlong forms, the surrogates and
what lies above U+10FFFF are left out, and no character is among these.

Conversely the bytes of a character are all that a lead byte and its continuation bytes can be
(`exists_of_continuation`), so whatever is read is the bytes of a text (`encode_of_decode`).  What
is not read is therefore no text, whichever way it is cut into characters.
-/

namespace CheckRegistry.Utf8

variable {b b₁ b₂ b₃ b₄ : UInt8} {bytes rest : List UInt8} {start : Nat} {c : Char} {cs : List Char}

/-! ## The bytes of a text -/

/-- Listing an array of bytes from a position on goes through the rest of it. -/
theorem toList_loop_eq (bytes : ByteArray) (i : Nat) (read : List UInt8) :
    ByteArray.toList.loop bytes i read = read.reverse ++ bytes.data.toList.drop i := by
  have hsize : bytes.data.toList.length = bytes.size := Array.length_toList
  induction hleft : bytes.size - i generalizing i read with
  | zero =>
    rw [ByteArray.toList.loop, if_neg (by omega), List.drop_of_length_le (by omega),
      List.append_nil]
  | succ n ih =>
    have hi : i < bytes.data.toList.length := by omega
    have hget : bytes.get! i = bytes.data.toList[i] := by
      rw [ByteArray.get!, getElem!_pos bytes.data i (by simpa using by omega),
        Array.getElem_toList]
    rw [ByteArray.toList.loop, if_pos (by omega), ih (i + 1) _ (by omega), List.reverse_cons,
      List.append_assoc, List.singleton_append, hget, ← List.drop_eq_getElem_cons]

theorem encode_eq (s : String) : encode s = s.toList.flatMap String.utf8EncodeChar := by
  rw [encode, ByteArray.toList, toList_loop_eq, String.toUTF8_eq_toByteArray,
    ← String.utf8Encode_toList, List.utf8Encode, List.data_toByteArray]
  simp

/-! ## Reading one character -/

theorem decodeFrom_ascii (h : b.toNat < 0x80) :
    decodeFrom start 0 (b :: rest) =
      (Char.ofNat b.toNat :: ·) <$> decodeFrom (start + 1) 0 rest := by
  rw [decodeFrom, if_pos h]

theorem decodeFrom_lead {lead : Lead} {code : Nat} (h : 0x80 ≤ b.toNat)
    (hlead : lead? b.toNat = some lead)
    (hdone : continuation lead.low lead.high lead.following lead.bits 1 rest = .done code) :
    decodeFrom start 0 (b :: rest) =
      (Char.ofNat code :: ·) <$> decodeFrom (start + 1) lead.following rest := by
  rw [decodeFrom, if_neg (by omega), hlead]
  simp only [hdone]

theorem continuation_cons {low high following code taken : Nat}
    (h : low ≤ b.toNat ∧ b.toNat ≤ high) :
    continuation low high (following + 1) code taken (b :: rest) =
      continuation 0x80 0xbf following (code * 64 + b.toNat % 64) (taken + 1) rest := by
  rw [continuation]
  simp only [h, and_self, if_true]

/-- The beginning of a byte sequence is that of a character, which is read. -/
def Reads (bytes : List UInt8) (c : Char) : Prop :=
  ∀ start rest cs, (∀ start, decodeFrom start 0 rest = .ok cs) →
    decodeFrom start 0 (bytes ++ rest) = .ok (c :: cs)

theorem reads_one (h : b.toNat < 0x80) (hc : c.toNat = b.toNat) : Reads [b] c := by
  intro start rest cs hrest
  rw [List.singleton_append, decodeFrom_ascii h, hrest, ← hc, Char.ofNat_toNat]
  rfl

theorem reads_two (hlead : lead? b₁.toNat = some ⟨0x80, 0xbf, 1, b₁.toNat - 0xc0⟩)
    (h₁ : 0x80 ≤ b₁.toNat) (h₂ : 0x80 ≤ b₂.toNat ∧ b₂.toNat ≤ 0xbf)
    (hc : c.toNat = (b₁.toNat - 0xc0) * 64 + b₂.toNat % 64) : Reads [b₁, b₂] c := by
  intro start rest cs hrest
  have hdone : continuation 0x80 0xbf 1 (b₁.toNat - 0xc0) 1 (b₂ :: rest) = .done c.toNat := by
    rw [continuation_cons h₂, continuation, hc]
  show decodeFrom start 0 (b₁ :: b₂ :: rest) = _
  rw [decodeFrom_lead h₁ hlead hdone, Char.ofNat_toNat]
  show (c :: ·) <$> decodeFrom (start + 1 + 1) 0 rest = _
  rw [hrest]
  rfl

theorem reads_three {low high bits : Nat} (hlead : lead? b₁.toNat = some ⟨low, high, 2, bits⟩)
    (h₁ : 0x80 ≤ b₁.toNat) (h₂ : low ≤ b₂.toNat ∧ b₂.toNat ≤ high)
    (h₃ : 0x80 ≤ b₃.toNat ∧ b₃.toNat ≤ 0xbf)
    (hc : c.toNat = (bits * 64 + b₂.toNat % 64) * 64 + b₃.toNat % 64) :
    Reads [b₁, b₂, b₃] c := by
  intro start rest cs hrest
  have hdone : continuation low high 2 bits 1 (b₂ :: b₃ :: rest) = .done c.toNat := by
    rw [continuation_cons h₂, continuation_cons h₃, continuation, hc]
  show decodeFrom start 0 (b₁ :: b₂ :: b₃ :: rest) = _
  rw [decodeFrom_lead h₁ hlead hdone, Char.ofNat_toNat]
  show (c :: ·) <$> decodeFrom (start + 1 + 1 + 1) 0 rest = _
  rw [hrest]
  rfl

theorem reads_four {low high bits : Nat} (hlead : lead? b₁.toNat = some ⟨low, high, 3, bits⟩)
    (h₁ : 0x80 ≤ b₁.toNat) (h₂ : low ≤ b₂.toNat ∧ b₂.toNat ≤ high)
    (h₃ : 0x80 ≤ b₃.toNat ∧ b₃.toNat ≤ 0xbf) (h₄ : 0x80 ≤ b₄.toNat ∧ b₄.toNat ≤ 0xbf)
    (hc : c.toNat = ((bits * 64 + b₂.toNat % 64) * 64 + b₃.toNat % 64) * 64 + b₄.toNat % 64) :
    Reads [b₁, b₂, b₃, b₄] c := by
  intro start rest cs hrest
  have hdone : continuation low high 3 bits 1 (b₂ :: b₃ :: b₄ :: rest) = .done c.toNat := by
    rw [continuation_cons h₂, continuation_cons h₃, continuation_cons h₄, continuation, hc]
  show decodeFrom start 0 (b₁ :: b₂ :: b₃ :: b₄ :: rest) = _
  rw [decodeFrom_lead h₁ hlead hdone, Char.ofNat_toNat]
  show (c :: ·) <$> decodeFrom (start + 1 + 1 + 1 + 1) 0 rest = _
  rw [hrest]
  rfl

/-! ## The bytes of a character -/

theorem toNat_ofNat_of_lt {n : Nat} (h : n < 256) : (UInt8.ofNat n).toNat = n := by
  rw [UInt8.toNat_ofNat']
  omega

theorem reads_utf8EncodeChar (c : Char) : Reads (String.utf8EncodeChar c) c := by
  have hvalid : c.toNat < 0xd800 ∨ 0xdfff < c.toNat ∧ c.toNat < 0x110000 := c.valid
  have hval : c.val.toNat = c.toNat := rfl
  rw [String.utf8EncodeChar]
  simp only [hval]
  generalize hv : c.toNat = v at hvalid
  split
  · -- one byte
    have hb : (UInt8.ofNat v).toNat = v := toNat_ofNat_of_lt (by omega)
    exact reads_one (by omega) (by omega)
  split
  · -- two bytes; no overlong form, since the code point is above U+007F
    have hb₁ : (UInt8.ofNat (v / 64 % 32 + 192)).toNat = v / 64 + 192 := by
      rw [toNat_ofNat_of_lt (by omega)]
      omega
    have hb₂ : (UInt8.ofNat (v % 64 + 128)).toNat = v % 64 + 128 := toNat_ofNat_of_lt (by omega)
    refine reads_two ?_ (by omega) (by omega) (by omega)
    rw [hb₁, lead?, if_neg (by omega), if_pos (by omega)]
  split
  · -- three bytes
    have hb₁ : (UInt8.ofNat (v / 4096 % 16 + 224)).toNat = v / 4096 + 224 := by
      rw [toNat_ofNat_of_lt (by omega)]
      omega
    have hb₂ : (UInt8.ofNat (v / 64 % 64 + 128)).toNat = v / 64 % 64 + 128 :=
      toNat_ofNat_of_lt (by omega)
    have hb₃ : (UInt8.ofNat (v % 64 + 128)).toNat = v % 64 + 128 := toNat_ofNat_of_lt (by omega)
    by_cases hoverlong : v / 4096 = 0
    · have hlead : lead? (v / 4096 + 224) = some ⟨0xa0, 0xbf, 2, 0⟩ := by rw [hoverlong]; rfl
      exact reads_three (hb₁ ▸ hlead) (by omega) (by omega) (by omega) (by omega)
    by_cases hsurrogate : v / 4096 = 0xd
    · have hlead : lead? (v / 4096 + 224) = some ⟨0x80, 0x9f, 2, 0xd⟩ := by rw [hsurrogate]; rfl
      exact reads_three (hb₁ ▸ hlead) (by omega) (by omega) (by omega) (by omega)
    · have hlead : lead? (v / 4096 + 224) = some ⟨0x80, 0xbf, 2, v / 4096⟩ := by
        rw [lead?, if_neg (by omega), if_neg (by omega), if_neg (by omega), if_neg (by omega),
          if_pos (by omega)]
        simp
      exact reads_three (hb₁ ▸ hlead) (by omega) (by omega) (by omega) (by omega)
  · -- four bytes
    have hb₁ : (UInt8.ofNat (v / 262144 % 8 + 240)).toNat = v / 262144 + 240 := by
      rw [toNat_ofNat_of_lt (by omega)]
      omega
    have hb₂ : (UInt8.ofNat (v / 4096 % 64 + 128)).toNat = v / 4096 % 64 + 128 :=
      toNat_ofNat_of_lt (by omega)
    have hb₃ : (UInt8.ofNat (v / 64 % 64 + 128)).toNat = v / 64 % 64 + 128 :=
      toNat_ofNat_of_lt (by omega)
    have hb₄ : (UInt8.ofNat (v % 64 + 128)).toNat = v % 64 + 128 := toNat_ofNat_of_lt (by omega)
    by_cases hoverlong : v / 262144 = 0
    · have hlead : lead? (v / 262144 + 240) = some ⟨0x90, 0xbf, 3, 0⟩ := by rw [hoverlong]; rfl
      exact reads_four (hb₁ ▸ hlead) (by omega) (by omega) (by omega) (by omega) (by omega)
    by_cases hlast : v / 262144 = 4
    · have hlead : lead? (v / 262144 + 240) = some ⟨0x80, 0x8f, 3, 4⟩ := by rw [hlast]; rfl
      exact reads_four (hb₁ ▸ hlead) (by omega) (by omega) (by omega) (by omega) (by omega)
    · have hlead : lead? (v / 262144 + 240) = some ⟨0x80, 0xbf, 3, v / 262144⟩ := by
        rw [lead?, if_neg (by omega), if_neg (by omega), if_neg (by omega), if_neg (by omega),
          if_neg (by omega), if_neg (by omega), if_pos (by omega)]
        simp
      exact reads_four (hb₁ ▸ hlead) (by omega) (by omega) (by omega) (by omega) (by omega)

/-! ## The whole text -/

/-- **A text is read back from its bytes.** -/
theorem decode_encode (s : String) : decode (encode s) = .ok s.toList := by
  have general : ∀ (cs : List Char) (start : Nat),
      decodeFrom start 0 (cs.flatMap String.utf8EncodeChar) = .ok cs := by
    intro cs
    induction cs with
    | nil => exact fun _ => rfl
    | cons c cs ih =>
      intro start
      rw [List.flatMap_cons]
      exact reads_utf8EncodeChar c start _ cs ih
  rw [decode, encode_eq]
  exact general s.toList 0

/-- Different texts have different bytes. -/
theorem encode_injective {s s' : String} (h : encode s = encode s') : s = s' := by
  have hdecode := decode_encode s
  rw [h, decode_encode s'] at hdecode
  exact String.toList_inj.mp (Except.ok.inj hdecode).symm

/-! ## Only texts are read -/

/-- What lead bytes promise, by the number of bytes that follow. -/
theorem lead?_cases {n : Nat} {lead : Lead} (h : lead? n = some lead) :
    (0xc2 ≤ n ∧ n < 0xe0 ∧ lead = ⟨0x80, 0xbf, 1, n - 0xc0⟩) ∨
    (0xe0 ≤ n ∧ n < 0xf0 ∧ lead.following = 2 ∧ lead.bits = n - 0xe0 ∧
      (if n = 0xe0 then 0xa0 else 0x80) = lead.low ∧
      (if n = 0xed then 0x9f else 0xbf) = lead.high) ∨
    (0xf0 ≤ n ∧ n ≤ 0xf4 ∧ lead.following = 3 ∧ lead.bits = n - 0xf0 ∧
      (if n = 0xf0 then 0x90 else 0x80) = lead.low ∧
      (if n = 0xf4 then 0x8f else 0xbf) = lead.high) := by
  unfold lead? at h
  split at h
  · cases h
  split at h
  · obtain rfl := Option.some.inj h
    exact Or.inl ⟨by omega, by omega, rfl⟩
  split at h
  · obtain rfl := Option.some.inj h
    subst n
    exact Or.inr (Or.inl (by simp))
  split at h
  · obtain rfl := Option.some.inj h
    subst n
    exact Or.inr (Or.inl (by simp))
  split at h
  · obtain rfl := Option.some.inj h
    refine Or.inr (Or.inl ⟨by omega, by omega, rfl, rfl, ?_, ?_⟩)
    · exact if_neg (by omega)
    · exact if_neg (by omega)
  split at h
  · obtain rfl := Option.some.inj h
    subst n
    exact Or.inr (Or.inr (by simp))
  split at h
  · obtain rfl := Option.some.inj h
    refine Or.inr (Or.inr ⟨by omega, by omega, rfl, rfl, ?_, ?_⟩)
    · exact if_neg (by omega)
    · exact if_neg (by omega)
  split at h
  · obtain rfl := Option.some.inj h
    subst n
    exact Or.inr (Or.inr (by simp))
  · cases h

theorem continuation_succ_eq_done {low high following code taken v : Nat}
    (h : continuation low high (following + 1) code taken rest = .done v) :
    ∃ b rest', rest = b :: rest' ∧ (low ≤ b.toNat ∧ b.toNat ≤ high) ∧
      continuation 0x80 0xbf following (code * 64 + b.toNat % 64) (taken + 1) rest' = .done v := by
  unfold continuation at h
  cases rest with
  | nil => cases h
  | cons b rest' =>
    by_cases hb : low ≤ b.toNat ∧ b.toNat ≤ high
    · simp only [hb, and_self, if_true] at h
      exact ⟨b, rest', rfl, hb, h⟩
    · simp only [hb, if_false] at h
      cases h

theorem map_cons_eq_ok {read : Except DecodeError (List Char)}
    (h : (c :: ·) <$> read = .ok cs) : ∃ cs', read = .ok cs' ∧ cs = c :: cs' := by
  cases read with
  | error e => cases h
  | ok cs' => exact ⟨cs', rfl, (Except.ok.inj h).symm⟩

theorem toNat_charOfNat {v : Nat} (h : v.isValidChar) : (Char.ofNat v).toNat = v := by
  rw [Char.ofNat, dif_pos h]
  rfl

theorem ofNat_eq {n : Nat} (h : b.toNat = n) : UInt8.ofNat n = b := by
  rw [← h, UInt8.ofNat_toNat]

theorem utf8EncodeChar_one (h : b.toNat < 0x80) :
    String.utf8EncodeChar (Char.ofNat b.toNat) = [b] := by
  have hv : (Char.ofNat b.toNat).val.toNat = b.toNat := toNat_charOfNat (Or.inl (by omega))
  rw [String.utf8EncodeChar]
  simp only [hv]
  rw [if_pos (by omega), UInt8.ofNat_toNat]

theorem utf8EncodeChar_two {v : Nat} (h₁ : 0xc2 ≤ b₁.toNat ∧ b₁.toNat < 0xe0)
    (h₂ : 0x80 ≤ b₂.toNat ∧ b₂.toNat ≤ 0xbf)
    (hv : v = (b₁.toNat - 0xc0) * 64 + b₂.toNat % 64) :
    String.utf8EncodeChar (Char.ofNat v) = [b₁, b₂] := by
  have hval : (Char.ofNat v).val.toNat = v := toNat_charOfNat (Or.inl (by omega))
  rw [String.utf8EncodeChar]
  simp only [hval]
  rw [if_neg (by omega), if_pos (by omega), ofNat_eq (b := b₁) (by omega),
    ofNat_eq (b := b₂) (by omega)]

theorem utf8EncodeChar_three {v low high : Nat} (h₁ : 0xe0 ≤ b₁.toNat ∧ b₁.toNat < 0xf0)
    (hlow : (if b₁.toNat = 0xe0 then 0xa0 else 0x80) = low)
    (hhigh : (if b₁.toNat = 0xed then 0x9f else 0xbf) = high)
    (h₂ : low ≤ b₂.toNat ∧ b₂.toNat ≤ high) (h₃ : 0x80 ≤ b₃.toNat ∧ b₃.toNat ≤ 0xbf)
    (hv : v = ((b₁.toNat - 0xe0) * 64 + b₂.toNat % 64) * 64 + b₃.toNat % 64) :
    String.utf8EncodeChar (Char.ofNat v) = [b₁, b₂, b₃] := by
  have hlead : v / 4096 = b₁.toNat - 0xe0 := by split at hlow <;> split at hhigh <;> omega
  have hrange : 0x800 ≤ v ∧ (v < 0xd800 ∨ 0xdfff < v) := by
    split at hlow <;> split at hhigh <;> omega
  have hval : (Char.ofNat v).val.toNat = v :=
    toNat_charOfNat (hrange.2.imp_right fun hlarge => ⟨hlarge, by omega⟩)
  have hmiddle : b₂.toNat = v / 64 % 64 + 0x80 := by
    split at hlow <;> split at hhigh <;> omega
  rw [String.utf8EncodeChar]
  simp only [hval]
  rw [if_neg (by omega), if_neg (by omega), if_pos (by omega), ofNat_eq (b := b₁) (by omega),
    ofNat_eq (b := b₂) hmiddle, ofNat_eq (b := b₃) (by omega)]

theorem utf8EncodeChar_four {v low high : Nat} (h₁ : 0xf0 ≤ b₁.toNat ∧ b₁.toNat ≤ 0xf4)
    (hlow : (if b₁.toNat = 0xf0 then 0x90 else 0x80) = low)
    (hhigh : (if b₁.toNat = 0xf4 then 0x8f else 0xbf) = high)
    (h₂ : low ≤ b₂.toNat ∧ b₂.toNat ≤ high) (h₃ : 0x80 ≤ b₃.toNat ∧ b₃.toNat ≤ 0xbf)
    (h₄ : 0x80 ≤ b₄.toNat ∧ b₄.toNat ≤ 0xbf)
    (hv : v = (((b₁.toNat - 0xf0) * 64 + b₂.toNat % 64) * 64 + b₃.toNat % 64) * 64 +
      b₄.toNat % 64) :
    String.utf8EncodeChar (Char.ofNat v) = [b₁, b₂, b₃, b₄] := by
  have hlead : v / 262144 = b₁.toNat - 0xf0 := by split at hlow <;> split at hhigh <;> omega
  have hrange : 0x10000 ≤ v ∧ v < 0x110000 := by split at hlow <;> split at hhigh <;> omega
  have hval : (Char.ofNat v).val.toNat = v :=
    toNat_charOfNat (Or.inr ⟨by omega, hrange.2⟩)
  have hsecond : b₂.toNat = v / 4096 % 64 + 0x80 := by
    split at hlow <;> split at hhigh <;> omega
  rw [String.utf8EncodeChar]
  simp only [hval]
  rw [if_neg (by omega), if_neg (by omega), if_neg (by omega), ofNat_eq (b := b₁) (by omega),
    ofNat_eq (b := b₂) hsecond, ofNat_eq (b := b₃) (by omega), ofNat_eq (b := b₄) (by omega)]

/-- A lead byte and the continuation bytes that it asks for are the bytes of a character. -/
theorem exists_of_continuation {lead : Lead} {v : Nat} (hlead : lead? b.toNat = some lead)
    (hdone : continuation lead.low lead.high lead.following lead.bits 1 rest = .done v) :
    ∃ tail rest', rest = tail ++ rest' ∧ tail.length = lead.following ∧
      String.utf8EncodeChar (Char.ofNat v) = b :: tail := by
  rcases lead?_cases hlead with ⟨hlow, hhigh, rfl⟩ | ⟨hlow, hhigh, hn, hbits, hmin, hmax⟩ |
    ⟨hlow, hhigh, hn, hbits, hmin, hmax⟩
  · obtain ⟨b₂, rest₂, rfl, h₂, hv⟩ := continuation_succ_eq_done hdone
    rw [continuation] at hv
    exact ⟨[b₂], rest₂, rfl, rfl, utf8EncodeChar_two ⟨hlow, hhigh⟩ h₂ (Tail.done.inj hv).symm⟩
  · rw [hn] at hdone
    obtain ⟨b₂, rest₂, rfl, h₂, hdone₂⟩ := continuation_succ_eq_done hdone
    obtain ⟨b₃, rest₃, rfl, h₃, hv⟩ := continuation_succ_eq_done hdone₂
    rw [continuation, hbits] at hv
    exact ⟨[b₂, b₃], rest₃, rfl, hn.symm,
      utf8EncodeChar_three ⟨hlow, hhigh⟩ hmin hmax h₂ h₃ (Tail.done.inj hv).symm⟩
  · rw [hn] at hdone
    obtain ⟨b₂, rest₂, rfl, h₂, hdone₂⟩ := continuation_succ_eq_done hdone
    obtain ⟨b₃, rest₃, rfl, h₃, hdone₃⟩ := continuation_succ_eq_done hdone₂
    obtain ⟨b₄, rest₄, rfl, h₄, hv⟩ := continuation_succ_eq_done hdone₃
    rw [continuation, hbits] at hv
    exact ⟨[b₂, b₃, b₄], rest₄, rfl, hn.symm,
      utf8EncodeChar_four ⟨hlow, hhigh⟩ hmin hmax h₂ h₃ h₄ (Tail.done.inj hv).symm⟩

/-- Bytes that belong to a character already read are passed over. -/
theorem decodeFrom_skip (tail rest : List UInt8) (start : Nat) :
    decodeFrom start tail.length (tail ++ rest) = decodeFrom (start + tail.length) 0 rest := by
  induction tail generalizing start with
  | nil => rfl
  | cons b tail ih =>
    rw [List.cons_append, List.length_cons, decodeFrom, ih, Nat.add_right_comm, Nat.add_assoc]

/-- What is read begins with the bytes of a character, after which reading starts afresh. -/
theorem exists_of_decodeFrom_cons (h : decodeFrom start 0 (b :: rest) = .ok cs) :
    ∃ c cs' rest' start', cs = c :: cs' ∧ b :: rest = String.utf8EncodeChar c ++ rest' ∧
      decodeFrom start' 0 rest' = .ok cs' := by
  by_cases hascii : b.toNat < 0x80
  · rw [decodeFrom_ascii hascii] at h
    obtain ⟨cs', hrest, rfl⟩ := map_cons_eq_ok h
    exact ⟨_, cs', rest, _, rfl, by rw [utf8EncodeChar_one hascii]; rfl, hrest⟩
  cases hlead : lead? b.toNat with
  | none =>
    rw [decodeFrom, if_neg hascii, hlead] at h
    cases h
  | some lead =>
    cases hdone : continuation lead.low lead.high lead.following lead.bits 1 rest with
    | flawed length flaw =>
      rw [decodeFrom, if_neg hascii, hlead] at h
      simp only [hdone] at h
      cases h
    | done v =>
      rw [decodeFrom_lead (by omega) hlead hdone] at h
      obtain ⟨cs', hrest, rfl⟩ := map_cons_eq_ok h
      obtain ⟨tail, rest', rfl, hlength, hchar⟩ := exists_of_continuation hlead hdone
      rw [← hlength, decodeFrom_skip] at hrest
      exact ⟨_, cs', rest', _, rfl, by rw [hchar]; rfl, hrest⟩

/-- **The bytes that are read are those of the text.**  With `decode_encode` this says that exactly
the bytes of texts are read. -/
theorem encode_of_decode {s : String} (h : decode bytes = .ok s.toList) : encode s = bytes := by
  have general : ∀ (n : Nat) (bytes : List UInt8) (start : Nat) (cs : List Char),
      bytes.length ≤ n → decodeFrom start 0 bytes = .ok cs →
      cs.flatMap String.utf8EncodeChar = bytes := by
    intro n
    induction n with
    | zero =>
      intro bytes start cs hlength h
      obtain rfl := List.length_eq_zero_iff.mp (Nat.le_zero.mp hlength)
      obtain rfl := Except.ok.inj h
      rfl
    | succ n ih =>
      intro bytes start cs hlength h
      cases bytes with
      | nil =>
        obtain rfl := Except.ok.inj h
        rfl
      | cons b rest =>
        obtain ⟨c, cs', rest', start', rfl, hbytes, hrest⟩ := exists_of_decodeFrom_cons h
        have hpos : 0 < (String.utf8EncodeChar c).length := String.length_utf8EncodeChar c ▸ c.utf8Size_pos
        have hshorter : rest'.length ≤ n := by
          have hsum := congrArg List.length hbytes
          rw [List.length_append] at hsum
          omega
        rw [List.flatMap_cons, ih rest' start' cs' hshorter hrest, hbytes]
  rw [encode_eq]
  exact general bytes.length bytes 0 s.toList (Nat.le_refl _) h

end Utf8

/-- Without carriage returns there is only one kind of line end. -/
theorem Text.unifyLineEnds_eq_self {s : List Char} (h : '\r' ∉ s) : unifyLineEnds s = s := by
  induction s with
  | nil => rfl
  | cons c s ih =>
    rw [List.mem_cons, not_or] at h
    rw [unifyLineEnds, ih h.2]
    · rintro _ rfl
      exact absurd rfl h.1
    · rintro rfl
      exact absurd rfl h.1

/-- The text of a file is that of which its bytes are the bytes, with unified line ends. -/
theorem textOfBytes_eq_ok_iff {bytes : List UInt8} {text : String} : textOfBytes bytes = .ok text ↔
    ∃ s, Utf8.encode s = bytes ∧ text = String.ofList (Text.unifyLineEnds s.toList) := by
  rw [textOfBytes]
  constructor
  · intro h
    cases hdecode : Utf8.decode bytes with
    | error e => rw [hdecode] at h; cases h
    | ok cs =>
      rw [hdecode] at h
      have hchars : Utf8.decode bytes = .ok (String.ofList cs).toList := by
        rw [String.toList_ofList]
        exact hdecode
      refine ⟨String.ofList cs, Utf8.encode_of_decode hchars, ?_⟩
      rw [String.toList_ofList]
      exact (Except.ok.inj h).symm
  · rintro ⟨s, rfl, rfl⟩
    rw [Utf8.decode_encode]
    rfl

/-- Bytes are refused exactly if they are not those of any text. -/
theorem exists_textOfBytes_error_iff {bytes : List UInt8} :
    (∃ e, textOfBytes bytes = .error e) ↔ ∀ s, Utf8.encode s ≠ bytes := by
  constructor
  · rintro ⟨e, he⟩ s hs
    rw [textOfBytes_eq_ok_iff.mpr ⟨s, hs, rfl⟩] at he
    cases he
  · intro h
    cases htext : textOfBytes bytes with
    | error e => exact ⟨e, rfl⟩
    | ok text =>
      obtain ⟨s, hs, _⟩ := textOfBytes_eq_ok_iff.mp htext
      exact absurd hs (h s)

end CheckRegistry
