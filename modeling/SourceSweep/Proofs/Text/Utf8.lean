import SourceSweep.Text.Utf8

/-! Every text is read back from its bytes: each character is written in the one form that the
decoder takes for it. -/
namespace SourceSweep.Text.Utf8

theorem byteToNat {n : Nat} (small : n < 256) : (UInt8.ofNat n).toNat = n := by
  rw [UInt8.toNat_ofNat']
  exact Nat.mod_eq_of_lt small

theorem scalarOf {leading : Nat} {tail : Bytes} {c : Char}
    (value : tail.foldl (fun n byte => n * 0x40 + byte.toNat % 0x40) leading = c.toNat) :
    scalar leading tail = c := by
  rw [scalar, value, Char.ofNat_toNat]

theorem tailToNat (n : Nat) : (UInt8.ofNat (0x80 + n % 0x40)).toNat = 0x80 + n % 0x40 :=
  byteToNat (by omega)

theorem isTailOf (n : Nat) : isTail (.ofNat (0x80 + n % 0x40)) = true := by
  simp only [isTail, Bool.and_eq_true, decide_eq_true_eq, UInt8.le_iff_toNat_le, tailToNat,
    UInt8.reduceToNat]
  omega

theorem longStart (a : UInt8) (low : 0xc2 ≤ a.toNat) (high : a.toNat ≤ 0xf4) :
    ¬ a < 0x80 ∧ (decide (a < 0xc2) || decide (0xf4 < a)) = false := by
  simp only [UInt8.lt_iff_toNat_lt, Bool.or_eq_false_iff, decide_eq_false_iff_not, UInt8.reduceToNat]
  omega

theorem isSecondOf {a b : UInt8} (low : 0x80 ≤ b.toNat) (high : b.toNat ≤ 0xbf)
    (afterE0 : a.toNat = 0xe0 → 0xa0 ≤ b.toNat) (afterED : a.toNat = 0xed → b.toNat ≤ 0x9f)
    (afterF0 : a.toNat = 0xf0 → 0x90 ≤ b.toNat) (afterF4 : a.toNat = 0xf4 → b.toNat ≤ 0x8f) :
    isSecond a b = true := by
  unfold isSecond
  simp only [Bool.and_eq_true, decide_eq_true_eq, UInt8.le_iff_toNat_le, ← UInt8.toNat_inj,
    UInt8.reduceToNat]
  constructor <;> split <;> (try split) <;> simp only [UInt8.reduceToNat] <;> omega

theorem scalarBounds (c : Char) : c.toNat < 0x110000 ∧ ¬ (0xd800 ≤ c.toNat ∧ c.toNat ≤ 0xdfff) := by
  have valid := c.valid
  rcases valid with low | ⟨high, limit⟩
  · exact ⟨Nat.lt_trans low (by decide), fun between => absurd low (Nat.not_lt.mpr between.1)⟩
  · exact ⟨limit, fun between => absurd high (Nat.not_lt.mpr between.2)⟩

section
variable {c : Char} (offset : Nat) (rest : Bytes)

theorem decodeOne (size : c.toNat < 0x80) :
    decodeAt offset (.ofNat c.toNat :: rest) = (decodeAt (offset + 1) rest).map (c :: ·) := by
  have value : (UInt8.ofNat c.toNat).toNat = c.toNat := byteToNat (by omega)
  have ascii : UInt8.ofNat c.toNat < 0x80 := by
    rw [UInt8.lt_iff_toNat_lt, value]
    exact size
  have whole : scalar (UInt8.ofNat c.toNat).toNat [] = c := scalarOf value
  rw [decodeAt.eq_def]
  simp only [ascii, if_true, whole]

theorem decodeTwo (low : ¬ c.toNat < 0x80) (size : c.toNat < 0x800) :
    decodeAt offset (.ofNat (0xc0 + c.toNat / 0x40) :: .ofNat (0x80 + c.toNat % 0x40) :: rest) =
      (decodeAt (offset + 2) rest).map (c :: ·) := by
  generalize first : UInt8.ofNat (0xc0 + c.toNat / 0x40) = a
  generalize second : UInt8.ofNat (0x80 + c.toNat % 0x40) = b
  have aNat : a.toNat = 0xc0 + c.toNat / 0x40 := first ▸ byteToNat (by omega)
  have bNat : b.toNat = 0x80 + c.toNat % 0x40 := second ▸ tailToNat c.toNat
  obtain ⟨notOne, taken⟩ := longStart a (by omega) (by omega)
  have follows : isSecond a b = true := isSecondOf (by omega) (by omega) (by omega) (by omega)
    (by omega) (by omega)
  have short : a < 0xe0 := by
    simp only [UInt8.lt_iff_toNat_lt, UInt8.reduceToNat]
    omega
  have whole : scalar (a.toNat - 0xc0) [b] = c := by
    refine scalarOf ?_
    simp only [List.foldl_cons, List.foldl_nil]
    omega
  rw [decodeAt.eq_def]
  simp only [notOne, taken, follows, short, whole, if_true, if_false, Bool.not_true,
    Bool.false_eq_true]

theorem decodeThree (low : ¬ c.toNat < 0x800) (size : c.toNat < 0x10000) :
    decodeAt offset (.ofNat (0xe0 + c.toNat / 0x1000) :: .ofNat (0x80 + c.toNat / 0x40 % 0x40) ::
      .ofNat (0x80 + c.toNat % 0x40) :: rest) = (decodeAt (offset + 3) rest).map (c :: ·) := by
  obtain ⟨_, gap⟩ := scalarBounds c
  have tail := isTailOf c.toNat
  generalize first : UInt8.ofNat (0xe0 + c.toNat / 0x1000) = a
  generalize second : UInt8.ofNat (0x80 + c.toNat / 0x40 % 0x40) = b
  generalize third : UInt8.ofNat (0x80 + c.toNat % 0x40) = d at tail ⊢
  have aNat : a.toNat = 0xe0 + c.toNat / 0x1000 := first ▸ byteToNat (by omega)
  have bNat : b.toNat = 0x80 + c.toNat / 0x40 % 0x40 := second ▸ tailToNat _
  have dNat : d.toNat = 0x80 + c.toNat % 0x40 := third ▸ tailToNat _
  obtain ⟨notOne, taken⟩ := longStart a (by omega) (by omega)
  have follows : isSecond a b = true := isSecondOf (by omega) (by omega) (by omega) (by omega)
    (by omega) (by omega)
  have notTwo : ¬ a < 0xe0 := by
    simp only [UInt8.lt_iff_toNat_lt, UInt8.reduceToNat]
    omega
  have short : a < 0xf0 := by
    simp only [UInt8.lt_iff_toNat_lt, UInt8.reduceToNat]
    omega
  have whole : scalar (a.toNat - 0xe0) [b, d] = c := by
    refine scalarOf ?_
    simp only [List.foldl_cons, List.foldl_nil]
    omega
  rw [decodeAt.eq_def]
  simp only [notOne, taken, follows, notTwo, tail, short, whole, if_true, if_false, Bool.not_true,
    Bool.false_eq_true]

theorem decodeFour (low : ¬ c.toNat < 0x10000) :
    decodeAt offset (.ofNat (0xf0 + c.toNat / 0x40000) :: .ofNat (0x80 + c.toNat / 0x1000 % 0x40) ::
      .ofNat (0x80 + c.toNat / 0x40 % 0x40) :: .ofNat (0x80 + c.toNat % 0x40) :: rest) =
      (decodeAt (offset + 4) rest).map (c :: ·) := by
  obtain ⟨limit, _⟩ := scalarBounds c
  have tail := isTailOf c.toNat
  have middle := isTailOf (c.toNat / 0x40)
  generalize first : UInt8.ofNat (0xf0 + c.toNat / 0x40000) = a
  generalize second : UInt8.ofNat (0x80 + c.toNat / 0x1000 % 0x40) = b
  generalize third : UInt8.ofNat (0x80 + c.toNat / 0x40 % 0x40) = d at middle ⊢
  generalize fourth : UInt8.ofNat (0x80 + c.toNat % 0x40) = e at tail ⊢
  have aNat : a.toNat = 0xf0 + c.toNat / 0x40000 := first ▸ byteToNat (by omega)
  have bNat : b.toNat = 0x80 + c.toNat / 0x1000 % 0x40 := second ▸ tailToNat _
  have dNat : d.toNat = 0x80 + c.toNat / 0x40 % 0x40 := third ▸ tailToNat _
  have eNat : e.toNat = 0x80 + c.toNat % 0x40 := fourth ▸ tailToNat _
  obtain ⟨notOne, taken⟩ := longStart a (by omega) (by omega)
  have follows : isSecond a b = true := isSecondOf (by omega) (by omega) (by omega) (by omega)
    (by omega) (by omega)
  have notTwo : ¬ a < 0xe0 := by
    simp only [UInt8.lt_iff_toNat_lt, UInt8.reduceToNat]
    omega
  have notThree : ¬ a < 0xf0 := by
    simp only [UInt8.lt_iff_toNat_lt, UInt8.reduceToNat]
    omega
  have whole : scalar (a.toNat - 0xf0) [b, d, e] = c := by
    refine scalarOf ?_
    simp only [List.foldl_cons, List.foldl_nil]
    omega
  rw [decodeAt.eq_def]
  simp only [notOne, taken, follows, notTwo, middle, notThree, tail, whole, if_false,
    Bool.not_true, Bool.false_eq_true]

theorem decodeChar (c : Char) : decodeAt offset (encodeChar c ++ rest) =
    (decodeAt (offset + (encodeChar c).length) rest).map (c :: ·) := by
  unfold encodeChar
  simp only
  split
  · exact decodeOne offset rest (by assumption)
  · split
    · exact decodeTwo offset rest (by assumption) (by assumption)
    · split
      · exact decodeThree offset rest (by assumption) (by assumption)
      · exact decodeFour offset rest (by assumption)

end

theorem decodeEncodeAt (offset : Nat) (text : Text) : decodeAt offset (encode text) = .ok text := by
  induction text generalizing offset with
  | nil => simp [encode, decodeAt]
  | cons c rest ih =>
    have split : encode (c :: rest) = encodeChar c ++ encode rest := by simp [encode]
    rw [split, decodeChar, ih]
    rfl

theorem decodeEncode (text : Text) : decode (encode text) = .ok text := decodeEncodeAt 0 text

end SourceSweep.Text.Utf8
