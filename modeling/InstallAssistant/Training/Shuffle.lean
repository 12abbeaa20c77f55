/-!
# InstallAssistant.Training.Shuffle

A shuffle that a seed decides.  The seed is stretched to a key of eight words; the
key drives a stream cipher of twelve rounds, whose words are the random numbers;
and these choose, from the last position down to the second, a position at or
before it to swap with.

* `keyOf`: the key of a seed;
* `block`: sixteen words of the stream;
* `swaps`: the chosen positions;
* `shuffle`: the numbers below `n` in the shuffled order.
-/

namespace InstallAssistant.Training.Shuffle

/-! ## the key -/

def rotateRight (x r : UInt32) : UInt32 := (x >>> r) ||| (x <<< (0 - r))

def rotateLeft (x r : UInt32) : UInt32 := (x <<< r) ||| (x >>> (0 - r))

/-- The next state of the generator that stretches a seed. -/
def nextState (s : UInt64) : UInt64 := s * 6364136223846793005 + 11634580027462260723

/-- The word that a state gives. -/
def outputWord (s : UInt64) : UInt32 :=
  rotateRight (((s >>> 18) ^^^ s) >>> 27).toUInt32 (s >>> 59).toUInt32

/-- The first `n` words after a state. -/
def stretch : (n : Nat) → UInt64 → List UInt32
  | 0, _ => []
  | n + 1, s => outputWord (nextState s) :: stretch n (nextState s)

/-- Four words that are worked on side by side. -/
structure Lanes where
  a : UInt32
  b : UInt32
  c : UInt32
  d : UInt32
deriving DecidableEq, Repr

structure Key where
  low : Lanes
  high : Lanes
deriving DecidableEq, Repr

/-- The key that a seed is stretched to. -/
def keyOf (seed : UInt64) : Key :=
  match stretch 8 seed with
  | [a, b, c, d, e, f, g, h] => ⟨⟨a, b, c, d⟩, ⟨e, f, g, h⟩⟩
  | _ => ⟨⟨0, 0, 0, 0⟩, ⟨0, 0, 0, 0⟩⟩

/-! ## the stream -/

namespace Lanes

def map (f : UInt32 → UInt32) (x : Lanes) : Lanes := ⟨f x.a, f x.b, f x.c, f x.d⟩

def zip (f : UInt32 → UInt32 → UInt32) (x y : Lanes) : Lanes :=
  ⟨f x.a y.a, f x.b y.b, f x.c y.c, f x.d y.d⟩

/-- The lanes moved one place to the front. -/
def turn (x : Lanes) : Lanes := ⟨x.b, x.c, x.d, x.a⟩

def toList (x : Lanes) : List UInt32 := [x.a, x.b, x.c, x.d]

end Lanes

/-- The sixteen words of the cipher, in four rows. -/
structure Square where
  p : Lanes
  q : Lanes
  r : Lanes
  s : Lanes
deriving DecidableEq, Repr

namespace Square

/-- One row is added into a second, which is mixed into a third, which is rotated. -/
def mix (x y z : Lanes) (amount : UInt32) : Lanes × Lanes :=
  let x := x.zip (· + ·) y
  (x, (z.zip (· ^^^ ·) x).map (rotateLeft · amount))

/-- Each column goes through the four steps of a round. -/
def columns (m : Square) : Square :=
  let (p, s) := mix m.p m.q m.s 16
  let (r, q) := mix m.r s m.q 12
  let (p, s) := mix p q s 8
  let (r, q) := mix r s q 7
  ⟨p, q, r, s⟩

/-- The rows are turned so that the diagonals become columns. -/
def diagonals (m : Square) : Square := ⟨m.p, m.q.turn, m.r.turn.turn, m.s.turn.turn.turn⟩

/-- The turn of `diagonals` taken back. -/
def straight (m : Square) : Square := ⟨m.p, m.q.turn.turn.turn, m.r.turn.turn, m.s.turn⟩

def doubleRound (m : Square) : Square := m.columns.diagonals.columns.straight

def add (m n : Square) : Square :=
  ⟨m.p.zip (· + ·) n.p, m.q.zip (· + ·) n.q, m.r.zip (· + ·) n.r, m.s.zip (· + ·) n.s⟩

def toList (m : Square) : List UInt32 := m.p.toList ++ m.q.toList ++ m.r.toList ++ m.s.toList

end Square

/-- The square that a key and a block number begin with. -/
def start (key : Key) (number : UInt64) : Square :=
  ⟨⟨0x61707865, 0x3320646e, 0x79622d32, 0x6b206574⟩, key.low, key.high,
    ⟨number.toUInt32, (number >>> 32).toUInt32, 0, 0⟩⟩

/-- The words of a block: twelve rounds, and the beginning added at the end. -/
def block (key : Key) (number : UInt64) : List UInt32 :=
  let m := start key number
  let mixed := m.doubleRound.doubleRound.doubleRound.doubleRound.doubleRound.doubleRound
  (mixed.add m).toList

/-- A place in the stream of a key: the words of the present block that are left, and the number of
the next block. -/
structure Stream where
  key : Key
  ready : List UInt32
  next : UInt64
deriving DecidableEq, Repr

def Stream.ofSeed (seed : UInt64) : Stream := ⟨keyOf seed, [], 0⟩

/-- The next word, and the place after it. -/
def Stream.word (s : Stream) : UInt32 × Stream :=
  match s.ready with
  | w :: ws => (w, { s with ready := ws })
  | [] =>
    match block s.key s.next with
    | w :: ws => (w, { s with ready := ws, next := s.next + 1 })
    | [] => (0, s)

/-! ## choosing -/

/-- A number below `range`.  A word is scaled to the range; words in the last, incomplete stretch
of the scale are passed over, so that all numbers are equally likely. -/
def choose (range : Nat) : (attempts : Nat) → Stream → Nat × Stream
  | 0, s => (0, s)
  | attempts + 1, s =>
    let (w, s) := s.word
    let product := w.toNat * range
    let zone := range * 2 ^ (31 - range.log2) - 1
    if product % 2 ^ 32 ≤ zone then (product / 2 ^ 32, s) else choose range attempts s

/-- How many words in a row may be passed over. -/
def maxAttempts : Nat := 1000

/-- For each position from `i` down to 1, the position that it is swapped with. -/
def swapsFrom : (i : Nat) → Stream → List (Nat × Nat)
  | 0, _ => []
  | i + 1, s =>
    let (j, s) := choose (i + 2) maxAttempts s
    (i + 1, j) :: swapsFrom i s

/-- The swaps that shuffle `n` things. -/
def swaps (n : Nat) (seed : UInt64) : List (Nat × Nat) := swapsFrom (n - 1) (.ofSeed seed)

/-- Things after some swaps of positions, one after the other. -/
def applySwaps {α : Type} (swaps : List (Nat × Nat)) (xs : Array α) : Array α :=
  swaps.foldl (fun xs (i, j) => xs.swapIfInBounds i j) xs

end Shuffle

/-- The numbers below `n` in the order that a seed shuffles them to. -/
def shuffle (n : Nat) (seed : UInt64) : List Nat :=
  (Shuffle.applySwaps (Shuffle.swaps n seed) (Array.range n)).toList

end InstallAssistant.Training
