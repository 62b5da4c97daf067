import AnswerGrading.Bytes.Basic

/-!
The BLAKE3 hash. The input is cut into chunks of 1024 bytes, a chunk into blocks of 64; the chaining
values of the chunks are joined in a binary tree whose left side is always a full power of two.
-/

namespace AnswerGrading.Blake3

abbrev Words := Array UInt32

def start : Words :=
  #[0x6a09e667, 0xbb67ae85, 0x3c6ef372, 0xa54ff53a, 0x510e527f, 0x9b05688c, 0x1f83d9ab, 0x5be0cd19]

def permutation : List Nat :=
  [2, 6, 3, 10, 7, 0, 4, 13, 1, 11, 12, 5, 9, 14, 15, 8]

def chunkStart : UInt32 := 1

def chunkEnd : UInt32 := 2

def parent : UInt32 := 4

def root : UInt32 := 8

def word (ws : Words) (i : Nat) : UInt32 :=
  ws.getD i 0

def rotate (x : UInt32) (n : UInt32) : UInt32 :=
  (x >>> n) ||| (x <<< (32 - n))

def mix (v : Words) (a b c d : Nat) (x y : UInt32) : Words :=
  let va := word v a + word v b + x
  let vd := rotate (word v d ^^^ va) 16
  let vc := word v c + vd
  let vb := rotate (word v b ^^^ vc) 12
  let va := va + vb + y
  let vd := rotate (vd ^^^ va) 8
  let vc := vc + vd
  let vb := rotate (vb ^^^ vc) 7
  (((v.setIfInBounds a va).setIfInBounds b vb).setIfInBounds c vc).setIfInBounds d vd

def lanes : List (Nat × Nat × Nat × Nat) :=
  [(0, 4, 8, 12), (1, 5, 9, 13), (2, 6, 10, 14), (3, 7, 11, 15),
    (0, 5, 10, 15), (1, 6, 11, 12), (2, 7, 8, 13), (3, 4, 9, 14)]

def round (v m : Words) : Words :=
  lanes.zipIdx.foldl (fun v ((a, b, c, d), i) =>
    mix v a b c d (word m (2 * i)) (word m (2 * i + 1))) v

def permute (m : Words) : Words :=
  (permutation.map (word m)).toArray

def runRounds : Nat → Words → Words → Words
  | 0, v, _ => v
  | n + 1, v, m => runRounds n (round v m) (permute m)

structure Block where
  chaining : Words
  message : Words
  counter : Nat
  size : Nat
  flags : UInt32

def Block.compress (b : Block) : Words :=
  let v := b.chaining ++ start.extract 0 4
    ++ #[UInt32.ofNat b.counter, UInt32.ofNat (b.counter / UInt32.size), UInt32.ofNat b.size,
      b.flags]
  let v := runRounds 7 v b.message
  ((List.range 8).map fun i => word v i ^^^ word v (i + 8)).toArray

def Block.rooted (b : Block) : Block :=
  { b with flags := b.flags ||| root, counter := 0 }

def messageWords (bs : Bytes) : Words :=
  ((List.range 16).map fun i => UInt32.ofNat (Bytes.toNat (Bytes.slice bs (4 * i) 4))).toArray

def wordBytes (ws : Words) : Bytes :=
  ws.toList.flatMap fun w => Bytes.ofNat 4 w.toNat

/-- Cuts into parts of `size` bytes; there is always one part, and only the last may be shorter. -/
def parts (size : Nat) : Nat → Bytes → List Bytes
  | 0, bs => [bs]
  | fuel + 1, bs =>
      if bs.length ≤ size then [bs] else bs.take size :: parts size fuel (bs.drop size)

/-- The last block of a chunk, with the chaining value of the blocks before it. -/
def chunkBlock (counter : Nat) : Words → UInt32 → List Bytes → Block
  | chaining, flags, [] => ⟨chaining, messageWords [], counter, 0, flags ||| chunkEnd⟩
  | chaining, flags, [b] => ⟨chaining, messageWords b, counter, b.length, flags ||| chunkEnd⟩
  | chaining, flags, b :: bs =>
      chunkBlock counter (Block.compress ⟨chaining, messageWords b, counter, b.length, flags⟩) 0 bs

def chunk (counter : Nat) (bs : Bytes) : Block :=
  chunkBlock counter start chunkStart (parts 64 16 bs)

/-- The block at the top of the tree over the chunks from number `counter` on. -/
def tree : Nat → Nat → List Bytes → Block
  | 0, counter, chunks => chunk counter (chunks.headD [])
  | fuel + 1, counter, chunks =>
      if chunks.length ≤ 1 then chunk counter (chunks.headD [])
      else
        let left := 1 <<< Nat.log2 (chunks.length - 1)
        let l := (tree fuel counter (chunks.take left)).compress
        let r := (tree fuel (counter + left) (chunks.drop left)).compress
        ⟨start, l ++ r, 0, 64, parent⟩

def hash (bs : Bytes) : Bytes :=
  let chunks := parts 1024 bs.length bs
  wordBytes (tree chunks.length 0 chunks).rooted.compress

theorem length_wordBytes (ws : Words) : (wordBytes ws).length = 4 * ws.size := by
  have h (l : List UInt32) : (l.flatMap fun w => Bytes.ofNat 4 w.toNat).length = 4 * l.length := by
    induction l with
    | nil => rfl
    | cons w l ih =>
        rw [List.flatMap_cons, List.length_append, ih, Bytes.length_ofNat, List.length_cons]
        omega
  rw [wordBytes, h, Array.length_toList]

theorem length_hash (bs : Bytes) : (hash bs).length = 32 := by
  simp [hash, length_wordBytes, Block.compress]

end AnswerGrading.Blake3
