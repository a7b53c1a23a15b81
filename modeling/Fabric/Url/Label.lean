/-! Labels of host names outside ASCII, written in ASCII. The ASCII characters stand first. The
others follow by ascending code point: each is given by how many places of insertion lie between
it and the one before, a number in base 36 whose digits end below a threshold that adapts to the
distances seen so far. -/

namespace Fabric.Url.Label

def letter (d : Nat) : Char :=
  if d < 26 then Char.ofNat (0x61 + d) else Char.ofNat (0x30 + (d - 26))

/-- The least value of a digit at place `k` that is not the last one. -/
def threshold (k bias : Nat) : Nat :=
  if k ≤ bias then 1 else if bias + 26 ≤ k then 26 else k - bias

theorem threshold_pos (k bias : Nat) : 1 ≤ threshold k bias := by
  unfold threshold
  split
  · omega
  · split <;> omega

/-- The digits of a distance, the least significant first. -/
def distance (bias k n : Nat) : List Char :=
  let t := threshold k bias
  if n < t then [letter n]
  else letter (t + (n - t) % (36 - t)) :: distance bias (k + 36) ((n - t) / (36 - t))
termination_by n
decreasing_by
  have := threshold_pos k bias
  have := Nat.div_le_self (n - threshold k bias) (36 - threshold k bias)
  omega

def dampen (n k : Nat) : Nat :=
  if 455 < n then dampen (n / 35) (k + 36) else k + 36 * n / (n + 38)
termination_by n
decreasing_by exact Nat.div_lt_self (by omega) (by omega)

/-- The bias after a distance, once `written` characters are there. -/
def adapt (n written : Nat) (isFirst : Bool) : Nat :=
  let n := if isFirst then n / 700 else n / 2
  dampen (n + n / written) 0

structure Progress where
  digits : List Char
  gap : Nat
  bias : Nat
  written : Nat

/-- Passes one character of the label while the code point `n` is being inserted. -/
def pass (ascii n : Nat) (p : Progress) (c : Char) : Progress :=
  if c.toNat < n then { p with gap := p.gap + 1 }
  else if c.toNat = n then
    { digits := p.digits ++ distance p.bias 36 p.gap, gap := 0
      bias := adapt p.gap (p.written + 1) (p.written = ascii), written := p.written + 1 }
  else p

/-- Inserts the code points `ns`, ascending; `next` is the least that may still come. -/
def insertAll (cs : List Char) (ascii : Nat) : List Nat → Nat → Progress → Progress
  | [], _, p => p
  | n :: ns, next, p =>
    let q := cs.foldl (pass ascii n) { p with gap := p.gap + (n - next) * (p.written + 1) }
    insertAll cs ascii ns (n + 1) { q with gap := q.gap + 1 }

def isAscii (c : Char) : Bool := c.toNat < 0x80

/-- The code points outside ASCII, ascending and each once. -/
def beyondAscii (cs : List Char) : List Nat :=
  (((cs.filter (!isAscii ·)).map Char.toNat).mergeSort).eraseDups

def encode (cs : List Char) : List Char :=
  if cs.all isAscii then cs
  else
    let ascii := cs.filter isAscii
    let p := insertAll cs ascii.length (beyondAscii cs) 0x80 ⟨[], 0, 72, ascii.length⟩
    "xn--".toList ++ ascii ++ (if ascii.isEmpty then [] else ['-']) ++ p.digits

end Fabric.Url.Label
