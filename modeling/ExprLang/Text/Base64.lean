/-!
# Base64

Three octets are written as four characters of six bits each; a shorter group at the end is filled
up with `=`.  What has no meaning is skipped when a text is read.

* `length_encode`: every group of three octets, also one that is not full, takes four characters.
* `decode?_encode`: octets that were written are read back.
-/

namespace ExprLang
namespace Text
namespace Base64

/-- The character for six bits. -/
def sextet (n : Nat) : Char :=
  if n < 26 then Char.ofNat (65 + n)
  else if n < 52 then Char.ofNat (71 + n)
  else if n < 62 then Char.ofNat (n - 4)
  else if n = 62 then '+'
  else '/'

/-- The octets in groups of three. -/
def encode : List UInt8 → List Char
  | [] => []
  | [a] =>
      let n := a.toNat * 16
      [sextet (n / 64), sextet (n % 64), '=', '=']
  | [a, b] =>
      let n := (a.toNat * 256 + b.toNat) * 4
      [sextet (n / 4096), sextet (n / 64 % 64), sextet (n % 64), '=']
  | a :: b :: c :: rest =>
      let n := (a.toNat * 256 + b.toNat) * 256 + c.toNat
      sextet (n / 262144) :: sextet (n / 4096 % 64) :: sextet (n / 64 % 64) :: sextet (n % 64) ::
        encode rest

theorem length_encode (octets : List UInt8) :
    (encode octets).length = 4 * ((octets.length + 2) / 3) := by
  fun_induction encode octets with
  | case1 => rfl
  | case2 => simp
  | case3 => simp
  | case4 a b c rest n ih =>
      simp only [List.length_cons, ih]
      omega

/-- The six bits of a character, if it stands for some. -/
def sextetValue? (c : Char) : Option Nat :=
  let n := c.toNat
  if 65 ≤ n ∧ n ≤ 90 then some (n - 65)
  else if 97 ≤ n ∧ n ≤ 122 then some (n - 71)
  else if 48 ≤ n ∧ n ≤ 57 then some (n + 4)
  else if c = '+' then some 62
  else if c = '/' then some 63
  else none

/-- The octets of a group of sextets; a group of fewer than four holds fewer octets. -/
def groupOctets : List Nat → List UInt8
  | [a, b] => [UInt8.ofNat (a * 4 + b / 16)]
  | [a, b, c] => [UInt8.ofNat (a * 4 + b / 16), UInt8.ofNat (b % 16 * 16 + c / 4)]
  | [a, b, c, d] =>
      [UInt8.ofNat (a * 4 + b / 16), UInt8.ofNat (b % 16 * 16 + c / 4),
        UInt8.ofNat (c % 4 * 64 + d)]
  | _ => []

/-- Reads on after the sextets of a group that is not full and `filled` marks that fill it up.  A
group that is filled up ends the text. -/
def decodeAfter (group : List Nat) (filled : Nat) : List Char → Option (List UInt8)
  | [] => if group.isEmpty then some [] else none
  | c :: rest =>
      if c = '=' then
        if group.length < 2 then decodeAfter group filled rest
        else if group.length + filled < 3 then decodeAfter group (filled + 1) rest
        else some (groupOctets group)
      else
        match sextetValue? c with
        | none => decodeAfter group filled rest
        | some n =>
            if group.length < 3 then decodeAfter (group ++ [n]) 0 rest
            else (decodeAfter [] 0 rest).map (groupOctets (group ++ [n]) ++ ·)

/-- The octets of a text; what stands for nothing is skipped. -/
def decode? (cs : List Char) : Option (List UInt8) :=
  decodeAfter [] 0 cs

theorem sextetValue?_sextet {n : Nat} (h : n < 64) : sextetValue? (sextet n) = some n := by
  have all : ∀ n < 64, sextetValue? (sextet n) = some n := by decide +kernel
  exact all n h

theorem sextet_ne_filling {n : Nat} (h : n < 64) : sextet n ≠ '=' := by
  have all : ∀ n < 64, sextet n ≠ '=' := by decide +kernel
  exact all n h

theorem decodeAfter_sextet {n : Nat} (h : n < 64) (group : List Nat) (filled : Nat)
    (rest : List Char) (hg : group.length < 3) :
    decodeAfter group filled (sextet n :: rest) = decodeAfter (group ++ [n]) 0 rest := by
  simp [decodeAfter, sextet_ne_filling h, sextetValue?_sextet h, hg]

theorem decodeAfter_sextet_last {n : Nat} (h : n < 64) (group : List Nat) (filled : Nat)
    (rest : List Char) (hg : group.length = 3) :
    decodeAfter group filled (sextet n :: rest) =
      (decodeAfter [] 0 rest).map (groupOctets (group ++ [n]) ++ ·) := by
  simp [decodeAfter, sextet_ne_filling h, sextetValue?_sextet h, hg]

theorem decode?_encode (octets : List UInt8) : decode? (encode octets) = some octets := by
  unfold decode?
  fun_induction encode octets with
  | case1 => rfl
  | case2 a n =>
      have ha := a.toNat_lt
      rw [decodeAfter_sextet (by omega) _ _ _ (by simp), decodeAfter_sextet (by omega) _ _ _ (by simp)]
      simp [decodeAfter, groupOctets]
      apply UInt8.toNat_inj.1
      simp
      omega
  | case3 a b n =>
      have ha := a.toNat_lt
      have hb := b.toNat_lt
      rw [decodeAfter_sextet (by omega) _ _ _ (by simp), decodeAfter_sextet (by omega) _ _ _ (by simp),
        decodeAfter_sextet (by omega) _ _ _ (by simp)]
      simp [decodeAfter, groupOctets]
      constructor <;> apply UInt8.toNat_inj.1 <;> simp <;> omega
  | case4 a b c rest n ih =>
      have ha := a.toNat_lt
      have hb := b.toNat_lt
      have hc := c.toNat_lt
      rw [decodeAfter_sextet (by omega) _ _ _ (by simp), decodeAfter_sextet (by omega) _ _ _ (by simp),
        decodeAfter_sextet (by omega) _ _ _ (by simp),
        decodeAfter_sextet_last (by omega) _ _ _ (by simp), ih]
      simp [groupOctets]
      refine ⟨?_, ?_, ?_⟩ <;> apply UInt8.toNat_inj.1 <;> simp <;> omega

end Base64
end Text
end ExprLang
