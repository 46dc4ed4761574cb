import RoxyGlance.Fault

/-!
# Text conversion

The settings file is UTF-8 and the program works on UTF-16.  The conversions themselves belong to
the system; a `TextCodec` is a pair of them together with what is documented about UTF-8: both
directions are inverse on well-formed text, text may be cut and joined at character boundaries,
ASCII stands for itself, and a UTF-16 unit takes one to three bytes.

Lengths are passed as `int`, so a byte count is narrowed first (`toInt`).
-/

namespace RoxyGlance

/-- `static_cast<int>` of a `size_t`. -/
def toInt (n : ℕ) : ℤ := (n : ℤ).bmod (2 ^ 32)

theorem toInt_of_lt {n : ℕ} (h : n < 2 ^ 31) : toInt n = n := by
  unfold toInt
  rw [Int.bmod_eq_of_le (by omega) (by omega)]

theorem toInt_lt (n : ℕ) : toInt n < 2 ^ 31 := by
  unfold toInt
  rw [Int.bmod_def]
  split_ifs <;> omega

/-- A length from `2 ^ 31` up to `2 ^ 32` is narrowed to a negative number. -/
theorem toInt_of_ge {n : ℕ} (h : 2 ^ 31 ≤ n) (h' : n < 2 ^ 32) : toInt n = n - 2 ^ 32 := by
  unfold toInt
  rw [Int.bmod_def]
  split_ifs <;> omega

/-- A conversion between UTF-8 bytes and UTF-16 code units; `none` is ill-formed text. -/
structure TextCodec where
  /-- The UTF-16 form of UTF-8 text. -/
  decode : Bytes → Option Wide
  /-- The UTF-8 form of UTF-16 text. -/
  encode : Wide → Option Bytes
  /-- What is reported when the UTF-8 form does not fit an `int`. -/
  tooLong : HResult
  encode_eq_some {w : Wide} {b : Bytes} : encode w = some b ↔ decode b = some w
  decode_append {a b : Bytes} {u v : Wide} :
    decode a = some u → decode b = some v → decode (a ++ b) = some (u ++ v)
  /-- After a whole number of characters comes well-formed text. -/
  decode_right {a b : Bytes} {u w : Wide} :
    decode a = some u → decode (a ++ b) = some w → ∃ v, decode b = some v
  /-- Well-formed text starts after a whole number of characters. -/
  decode_left {a b : Bytes} {v w : Wide} :
    decode b = some v → decode (a ++ b) = some w → ∃ u, decode a = some u
  decode_ascii (c : UInt8) : c < 128 → decode [c] = some [c.toUInt16]
  /-- An ASCII unit at either end comes from an ASCII byte. -/
  head_ascii {b : Bytes} {w : Wide} {c : UInt8} :
    c < 128 → decode b = some w → w.head? = some c.toUInt16 → b.head? = some c
  getLast_ascii {b : Bytes} {w : Wide} {c : UInt8} :
    c < 128 → decode b = some w → w.getLast? = some c.toUInt16 → b.getLast? = some c
  /-- A unit takes at least one byte and at most three. -/
  length_decode_le {b : Bytes} {w : Wide} : decode b = some w → w.length ≤ b.length
  length_le_decode {b : Bytes} {w : Wide} : decode b = some w → b.length ≤ 3 * w.length
  failed_tooLong : tooLong.failed = true

namespace TextCodec

variable (codec : TextCodec)

@[simp] theorem decode_nil : codec.decode [] = some [] := by
  have ha : codec.decode [65] = some [65] := codec.decode_ascii 65 (by decide)
  obtain ⟨v, hv⟩ := codec.decode_right (a := [65]) (b := []) ha ha
  have hvnil : v = [] := by
    have hlen := codec.length_decode_le hv
    simpa using hlen
  rw [hv, hvnil]

/-- Only the empty text is converted to the empty text. -/
theorem eq_nil_of_decode {b : Bytes} (h : codec.decode b = some []) : b = [] := by
  have h1 := codec.encode_eq_some.2 h
  have h2 := codec.encode_eq_some.2 codec.decode_nil
  rw [h1] at h2
  exact Option.some.inj h2

/-- The text after a well-formed beginning is converted on its own. -/
theorem decode_append_right {a b : Bytes} {u w : Wide} (ha : codec.decode a = some u)
    (hab : codec.decode (a ++ b) = some w) : ∃ v, codec.decode b = some v ∧ w = u ++ v := by
  obtain ⟨v, hv⟩ := codec.decode_right ha hab
  have := codec.decode_append ha hv
  rw [hab] at this
  exact ⟨v, hv, Option.some.inj this⟩

/-- `ConvertUtf8ToUtf16` on the first `utf8len` bytes.  The release build assumes that there are
some. -/
def convertUtf8ToUtf16 (utf8 : Bytes) (utf8len : ℤ) : Except Fault (Except HResult Wide) :=
  if utf8len ≤ 0 then .error .undefined
  else match codec.decode (utf8.take utf8len.toNat) with
    | some w => .ok (.ok w)
    | none => .ok (.error HResult.kErrorNoUnicodeTranslation)

/-- `ConvertUtf16ToUtf8` on the first `utf16len` units. -/
def convertUtf16ToUtf8 (utf16 : Wide) (utf16len : ℤ) : Except Fault (Except HResult Bytes) :=
  if utf16len ≤ 0 then .error .undefined
  else match codec.encode (utf16.take utf16len.toNat) with
    | some b => .ok (if b.length < 2 ^ 31 then .ok b else .error codec.tooLong)
    | none => .ok (.error HResult.kErrorNoUnicodeTranslation)

end TextCodec

/-! ### A codec for ASCII -/

section Ascii

theorem toUInt16_toUInt8 {c : UInt16} (hc : c < 128) :
    c.toUInt8 < 128 ∧ c.toUInt8.toUInt16 = c := by
  have h : c.toNat < 128 := UInt16.lt_iff_toNat_lt.1 hc
  constructor
  · rw [UInt8.lt_iff_toNat_lt, UInt16.toNat_toUInt8]
    exact lt_of_le_of_lt (Nat.mod_le _ _) h
  · apply UInt16.toNat.inj
    simp only [UInt8.toNat_toUInt16, UInt16.toNat_toUInt8]
    omega

theorem toUInt16_lt {c : UInt8} (hc : c < 128) : c.toUInt16 < 128 := by
  rw [UInt16.lt_iff_toNat_lt]
  simpa using UInt8.lt_iff_toNat_lt.1 hc

theorem toUInt16_injective {c d : UInt8} (h : c.toUInt16 = d.toUInt16) : c = d := by
  have := congrArg UInt16.toUInt8 h
  simpa using this

/-- The UTF-16 form of ASCII text. -/
def asciiDecode (b : Bytes) : Option Wide :=
  if b.all fun c => c < 128 then some (b.map UInt8.toUInt16) else none

/-- The ASCII form of UTF-16 text. -/
def asciiEncode (w : Wide) : Option Bytes :=
  if w.all fun c => c < 128 then some (w.map UInt16.toUInt8) else none

theorem asciiDecode_eq_some {b : Bytes} {w : Wide} :
    asciiDecode b = some w ↔ (∀ c ∈ b, c < 128) ∧ w = b.map UInt8.toUInt16 := by
  have hall : (b.all fun c => c < 128) = true ↔ ∀ c ∈ b, c < 128 := by simp
  unfold asciiDecode
  rw [← hall]
  split_ifs with h
  · simp only [Option.some.injEq]
    exact ⟨fun hw => ⟨h, hw.symm⟩, fun hw => hw.2.symm⟩
  · simp [h]

theorem asciiEncode_eq_some {b : Bytes} {w : Wide} :
    asciiEncode w = some b ↔ asciiDecode b = some w := by
  rw [asciiDecode_eq_some]
  unfold asciiEncode
  constructor
  · intro h
    split_ifs at h with hw
    cases h
    rw [List.all_eq_true] at hw
    simp only [decide_eq_true_eq] at hw
    refine ⟨fun c hc => ?_, ?_⟩
    · obtain ⟨d, hd, rfl⟩ := List.mem_map.1 hc
      exact (toUInt16_toUInt8 (hw d hd)).1
    · rw [List.map_map]
      conv_lhs => rw [← List.map_id w]
      exact List.map_congr_left fun c hc => ((toUInt16_toUInt8 (hw c hc)).2).symm
  · rintro ⟨hb, rfl⟩
    rw [if_pos]
    · rw [List.map_map]
      conv_rhs => rw [← List.map_id b]
      exact congrArg some (List.map_congr_left fun c _ => by simp)
    · simp only [List.all_eq_true, decide_eq_true_eq]
      intro c hc
      obtain ⟨d, hd, rfl⟩ := List.mem_map.1 hc
      exact toUInt16_lt (hb d hd)

/-- The conversions restricted to ASCII, where they agree with every codec. -/
def asciiCodec : TextCodec where
  decode := asciiDecode
  encode := asciiEncode
  tooLong := HResult.invalidArg
  encode_eq_some := asciiEncode_eq_some
  decode_append := by
    intro a b u v ha hb
    obtain ⟨ha', rfl⟩ := asciiDecode_eq_some.1 ha
    obtain ⟨hb', rfl⟩ := asciiDecode_eq_some.1 hb
    refine asciiDecode_eq_some.2 ⟨fun c hc => ?_, by rw [List.map_append]⟩
    exact (List.mem_append.1 hc).elim (ha' c) (hb' c)
  decode_right := by
    intro a b u w _ hab
    have h := (asciiDecode_eq_some.1 hab).1
    exact ⟨_, asciiDecode_eq_some.2 ⟨fun c hc => h c (List.mem_append_right a hc), rfl⟩⟩
  decode_left := by
    intro a b v w _ hab
    have h := (asciiDecode_eq_some.1 hab).1
    exact ⟨_, asciiDecode_eq_some.2 ⟨fun c hc => h c (List.mem_append_left b hc), rfl⟩⟩
  decode_ascii c hc := asciiDecode_eq_some.2 ⟨by simpa using hc, rfl⟩
  head_ascii := by
    intro b w c _ hb hw
    obtain ⟨-, rfl⟩ := asciiDecode_eq_some.1 hb
    rw [List.head?_map] at hw
    obtain ⟨d, hd, hdc⟩ := Option.map_eq_some_iff.1 hw
    rw [hd, toUInt16_injective hdc]
  getLast_ascii := by
    intro b w c _ hb hw
    obtain ⟨-, rfl⟩ := asciiDecode_eq_some.1 hb
    rw [List.getLast?_map] at hw
    obtain ⟨d, hd, hdc⟩ := Option.map_eq_some_iff.1 hw
    rw [hd, toUInt16_injective hdc]
  length_decode_le := by
    intro b w hb
    obtain ⟨-, rfl⟩ := asciiDecode_eq_some.1 hb
    rw [List.length_map]
  length_le_decode := by
    intro b w hb
    obtain ⟨-, rfl⟩ := asciiDecode_eq_some.1 hb
    rw [List.length_map]
    omega
  failed_tooLong := by decide

end Ascii

end RoxyGlance
