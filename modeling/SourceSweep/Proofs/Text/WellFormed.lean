import Mathlib.Tactic.SplitIfs
import SourceSweep.Proofs.Text.Utf8

/-! Bytes that are well formed, said by the numbers that they spell: one number after another, each in
as few bytes as can be, and none of them a surrogate or past the last character. The decoder takes
exactly such bytes, and the text that it makes of them has no other encoding. -/
namespace SourceSweep.Text.Utf8

def Follows (byte : UInt8) : Prop := 0x80 ≤ byte.toNat ∧ byte.toNat < 0xc0

/-- The first byte tells how many follow it. Its low bits and six bits of each other byte spell a
number, which need not be that of a character and may be spelled in more bytes than it takes. -/
inductive Spells : Bytes → Nat → Prop where
  | one {a} (low : a.toNat < 0x80) : Spells [a] a.toNat
  | two {a b} (low : 0xc0 ≤ a.toNat) (high : a.toNat < 0xe0) (second : Follows b) :
      Spells [a, b] ((a.toNat - 0xc0) * 0x40 + (b.toNat - 0x80))
  | three {a b c} (low : 0xe0 ≤ a.toNat) (high : a.toNat < 0xf0) (second : Follows b)
      (third : Follows c) :
      Spells [a, b, c] ((a.toNat - 0xe0) * 0x1000 + (b.toNat - 0x80) * 0x40 + (c.toNat - 0x80))
  | four {a b c d} (low : 0xf0 ≤ a.toNat) (high : a.toNat < 0xf8) (second : Follows b)
      (third : Follows c) (fourth : Follows d) :
      Spells [a, b, c, d] ((a.toNat - 0xf0) * 0x40000 + (b.toNat - 0x80) * 0x1000 +
        (c.toNat - 0x80) * 0x40 + (d.toNat - 0x80))

def leastOf : (count : Nat) → Nat
  | 2 => 0x80
  | 3 => 0x800
  | 4 => 0x10000
  | _ => 0

structure Character (bytes : Bytes) (n : Nat) : Prop where
  spelled : Spells bytes n
  shortest : leastOf bytes.length ≤ n
  notSurrogate : ¬ (0xd800 ≤ n ∧ n ≤ 0xdfff)
  within : n ≤ 0x10ffff

inductive WellFormed : Bytes → Prop where
  | nil : WellFormed []
  | cons {front rest n} (character : Character front n) (next : WellFormed rest) :
      WellFormed (front ++ rest)

theorem Character.toNat {bytes : Bytes} {n : Nat} (character : Character bytes n) :
    (Char.ofNat n).toNat = n := by
  have valid : n.isValidChar := by
    have := character.notSurrogate
    have := character.within
    unfold Nat.isValidChar
    omega
  rw [Char.ofNat, dif_pos valid]
  rfl

theorem ofNatByte {n : Nat} {byte : UInt8} (same : n = byte.toNat) : UInt8.ofNat n = byte := by
  rw [same, UInt8.ofNat_toNat]

theorem Character.encode {bytes : Bytes} {n : Nat} (character : Character bytes n) :
    encodeChar (Char.ofNat n) = bytes := by
  have number := character.toNat
  obtain ⟨spelled, shortest, _, within⟩ := character
  unfold encodeChar
  rw [number]
  cases spelled with
  | one low => simp [low]
  | @two a b low high second =>
    obtain ⟨b0, b1⟩ := second
    simp only [leastOf, List.length_cons, List.length_nil] at shortest
    generalize spelling : (a.toNat - 0xc0) * 0x40 + (b.toNat - 0x80) = n at shortest ⊢
    have first : 0xc0 + n / 0x40 = a.toNat := by omega
    have last : 0x80 + n % 0x40 = b.toNat := by omega
    rw [if_neg (by omega), if_pos (by omega), ofNatByte first, ofNatByte last]
  | @three a b c low high second third =>
    obtain ⟨b0, b1⟩ := second
    obtain ⟨c0, c1⟩ := third
    simp only [leastOf, List.length_cons, List.length_nil] at shortest
    generalize spelling : (a.toNat - 0xe0) * 0x1000 + (b.toNat - 0x80) * 0x40 + (c.toNat - 0x80) = n
      at shortest ⊢
    have first : 0xe0 + n / 0x1000 = a.toNat := by omega
    have middle : 0x80 + n / 0x40 % 0x40 = b.toNat := by omega
    have last : 0x80 + n % 0x40 = c.toNat := by omega
    rw [if_neg (by omega), if_neg (by omega), if_pos (by omega), ofNatByte first, ofNatByte middle,
      ofNatByte last]
  | @four a b c d low high second third fourth =>
    obtain ⟨b0, b1⟩ := second
    obtain ⟨c0, c1⟩ := third
    obtain ⟨d0, d1⟩ := fourth
    simp only [leastOf, List.length_cons, List.length_nil] at shortest
    generalize spelling : (a.toNat - 0xf0) * 0x40000 + (b.toNat - 0x80) * 0x1000 +
      (c.toNat - 0x80) * 0x40 + (d.toNat - 0x80) = n at shortest within ⊢
    have first : 0xf0 + n / 0x40000 = a.toNat := by omega
    have second : 0x80 + n / 0x1000 % 0x40 = b.toNat := by omega
    have third : 0x80 + n / 0x40 % 0x40 = c.toNat := by omega
    have last : 0x80 + n % 0x40 = d.toNat := by omega
    rw [if_neg (by omega), if_neg (by omega), if_neg (by omega), ofNatByte first, ofNatByte second,
      ofNatByte third, ofNatByte last]

theorem tailFollows {byte : UInt8} (tail : ¬ (!isTail byte) = true) : Follows byte := by
  simp only [isTail, Bool.not_eq_true', Bool.not_eq_false, Bool.and_eq_true, decide_eq_true_eq,
    UInt8.le_iff_toNat_le, UInt8.reduceToNat] at tail
  unfold Follows
  omega

theorem leadBounds {a : UInt8} (taken : ¬ (decide (a < 0xc2) || decide (0xf4 < a)) = true) :
    0xc2 ≤ a.toNat ∧ a.toNat ≤ 0xf4 := by
  simp only [Bool.or_eq_true, decide_eq_true_eq, UInt8.lt_iff_toNat_lt, UInt8.reduceToNat] at taken
  omega

theorem secondBounds {a b : UInt8} (second : ¬ (!isSecond a b) = true) : Follows b ∧
    (a.toNat = 0xe0 → 0xa0 ≤ b.toNat) ∧ (a.toNat = 0xed → b.toNat ≤ 0x9f) ∧
    (a.toNat = 0xf0 → 0x90 ≤ b.toNat) ∧ (a.toNat = 0xf4 → b.toNat ≤ 0x8f) := by
  simp only [isSecond, Bool.not_eq_true', Bool.not_eq_false, Bool.and_eq_true, decide_eq_true_eq,
    UInt8.le_iff_toNat_le, ← UInt8.toNat_inj, UInt8.reduceToNat] at second
  unfold Follows
  split_ifs at second <;> simp only [UInt8.reduceToNat] at second <;> omega

theorem scalarSpelled {leading : Nat} {tail : Bytes} {n : Nat}
    (value : tail.foldl (fun n byte => n * 0x40 + byte.toNat % 0x40) leading = n) :
    scalar leading tail = Char.ofNat n := by
  rw [scalar, value]

theorem characterTaken {front rest : Bytes} {n : Nat} (character : Character front n)
    {later : Except Defect Text} {text : Text} (taken : later.map (Char.ofNat n :: ·) = .ok text)
    (ih : ∀ {text}, later = .ok text → WellFormed rest ∧ encode text = rest) :
    WellFormed (front ++ rest) ∧ encode text = front ++ rest := by
  cases later with
  | error defect => cases taken
  | ok later =>
    cases taken
    obtain ⟨formed, same⟩ := ih rfl
    refine ⟨.cons character formed, ?_⟩
    rw [← same, ← character.encode]
    rfl

theorem decodeTakes {offset : Nat} {bytes : Bytes} {text : Text}
    (decoded : decodeAt offset bytes = .ok text) : WellFormed bytes ∧ encode text = bytes := by
  fun_induction decodeAt offset bytes generalizing text with
  | case1 =>
    cases decoded
    exact ⟨.nil, rfl⟩
  | case2 offset a rest low ih =>
    simp only [UInt8.lt_iff_toNat_lt, UInt8.reduceToNat] at low
    rw [scalarSpelled (n := a.toNat) rfl] at decoded
    exact characterTaken ⟨.one low, Nat.zero_le _, by omega, by omega⟩ decoded ih
  | case6 offset a _ lead b rest second short ih =>
    obtain ⟨low, high⟩ := leadBounds lead
    obtain ⟨follows, limits⟩ := secondBounds second
    obtain ⟨b0, b1⟩ := id follows
    simp only [UInt8.lt_iff_toNat_lt, UInt8.reduceToNat] at short
    have spelled := Spells.two (by omega) short follows (a := a)
    generalize number : (a.toNat - 0xc0) * 0x40 + (b.toNat - 0x80) = n at spelled
    have shortest : leastOf [a, b].length ≤ n := show 0x80 ≤ n by omega
    rw [scalarSpelled (n := n) (by simp only [List.foldl_cons, List.foldl_nil]; omega)] at decoded
    exact characterTaken ⟨spelled, shortest, by omega, by omega⟩ decoded ih
  | case9 offset a _ lead b second long c rest third short ih =>
    obtain ⟨low, high⟩ := leadBounds lead
    obtain ⟨follows, limits⟩ := secondBounds second
    obtain ⟨b0, b1⟩ := id follows
    obtain ⟨c0, c1⟩ := id (tailFollows third)
    simp only [UInt8.lt_iff_toNat_lt, UInt8.reduceToNat] at short long
    have spelled := Spells.three (by omega) short follows (tailFollows third) (a := a)
    generalize number : (a.toNat - 0xe0) * 0x1000 + (b.toNat - 0x80) * 0x40 + (c.toNat - 0x80) = n
      at spelled
    have shortest : leastOf [a, b, c].length ≤ n := show 0x800 ≤ n by omega
    rw [scalarSpelled (n := n) (by simp only [List.foldl_cons, List.foldl_nil]; omega)] at decoded
    exact characterTaken ⟨spelled, shortest, by omega, by omega⟩ decoded ih
  | case12 offset a _ lead b second long c third longer d rest fourth ih =>
    obtain ⟨low, high⟩ := leadBounds lead
    obtain ⟨follows, limits⟩ := secondBounds second
    obtain ⟨b0, b1⟩ := id follows
    obtain ⟨c0, c1⟩ := id (tailFollows third)
    obtain ⟨d0, d1⟩ := id (tailFollows fourth)
    simp only [UInt8.lt_iff_toNat_lt, UInt8.reduceToNat] at longer
    have spelled := Spells.four (by omega) (by omega) follows (tailFollows third)
      (tailFollows fourth) (a := a)
    generalize number : (a.toNat - 0xf0) * 0x40000 + (b.toNat - 0x80) * 0x1000 +
      (c.toNat - 0x80) * 0x40 + (d.toNat - 0x80) = n at spelled
    have shortest : leastOf [a, b, c, d].length ≤ n := show 0x10000 ≤ n by omega
    rw [scalarSpelled (n := n) (by simp only [List.foldl_cons, List.foldl_nil]; omega)] at decoded
    exact characterTaken ⟨spelled, shortest, by omega, by omega⟩ decoded ih
  | _ => cases decoded

theorem decodeIff {bytes : Bytes} {text : Text} : decode bytes = .ok text ↔ encode text = bytes := by
  constructor
  · exact fun decoded => (decodeTakes decoded).2
  · rintro rfl
    exact decodeEncode text

theorem wellFormedIff {bytes : Bytes} : WellFormed bytes ↔ ∃ text, decode bytes = .ok text := by
  constructor
  · intro formed
    induction formed with
    | nil => exact ⟨[], rfl⟩
    | @cons front rest n character next ih =>
      obtain ⟨text, decoded⟩ := ih
      refine ⟨Char.ofNat n :: text, decodeIff.mpr ?_⟩
      rw [← decodeIff.mp decoded, ← character.encode]
      rfl
  · rintro ⟨text, decoded⟩
    exact (decodeTakes decoded).1

instance (bytes : Bytes) : Decidable (WellFormed bytes) :=
  match decoded : decode bytes with
  | .ok text => .isTrue (wellFormedIff.mpr ⟨text, decoded⟩)
  | .error _ => .isFalse fun formed => by
    obtain ⟨text, other⟩ := wellFormedIff.mp formed
    cases decoded.symm.trans other

end SourceSweep.Text.Utf8
