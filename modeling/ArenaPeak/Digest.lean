/-!
The BLAKE3 tree hash of a list of bytes, and its first word as a short digest. Chunks of 1024
bytes are hashed block by block into a node each; the nodes are joined pairwise, the left side of
every join holding the largest power of two of chunks that leaves something for the right side.
-/

namespace ArenaPeak.Digest

abbrev Chain := Vector UInt32 8
abbrev Block := Vector UInt32 16

/-- The chain value every chunk and every join starts from. -/
def start : Chain :=
  #v[0x6A09E667, 0xBB67AE85, 0x3C6EF372, 0xA54FF53A,
     0x510E527F, 0x9B05688C, 0x1F83D9AB, 0x5BE0CD19]

/-- Where each word of the next round's message comes from. -/
def messageOrder : Vector (Fin 16) 16 :=
  #v[2, 6, 3, 10, 7, 0, 4, 13, 1, 11, 12, 5, 9, 14, 15, 8]

def rotateRight (w : UInt32) (n : UInt32) : UInt32 :=
  (w >>> n) ||| (w <<< (32 - n))

/-- The quarter round: stirs two message words into four words of the state. -/
def mix (s : Block) (a b c d : Fin 16) (x y : UInt32) : Block :=
  let wa := s[a] + s[b] + x
  let wd := rotateRight (s[d] ^^^ wa) 16
  let wc := s[c] + wd
  let wb := rotateRight (s[b] ^^^ wc) 12
  let wa := wa + wb + y
  let wd := rotateRight (wd ^^^ wa) 8
  let wc := wc + wd
  let wb := rotateRight (wb ^^^ wc) 7
  (((s.set a wa).set b wb).set c wc).set d wd

/-- One round: the columns of the state, then its diagonals. -/
def round (s m : Block) : Block :=
  let s := mix s 0 4 8 12 m[0] m[1]
  let s := mix s 1 5 9 13 m[2] m[3]
  let s := mix s 2 6 10 14 m[4] m[5]
  let s := mix s 3 7 11 15 m[6] m[7]
  let s := mix s 0 5 10 15 m[8] m[9]
  let s := mix s 1 6 11 12 m[10] m[11]
  let s := mix s 2 7 8 13 m[12] m[13]
  mix s 3 4 9 14 m[14] m[15]

def rounds : Nat → Block → Block → Block
  | 0, s, _ => s
  | n + 1, s, m => rounds n (round s m) (Vector.ofFn fun i => m[messageOrder[i]])

/-- What is hashed in one step: a chain value, a block of message words and their setting. -/
structure Node where
  chain : Chain
  block : Block
  counter : UInt64
  size : UInt32
  flags : UInt32

namespace Node

def chunkStart : UInt32 := 1
def chunkEnd : UInt32 := 2
def parent : UInt32 := 4
def root : UInt32 := 8

def compress (n : Node) : Chain :=
  let low := n.counter.toUInt32
  let high := (n.counter >>> 32).toUInt32
  let s : Block :=
    #v[n.chain[0], n.chain[1], n.chain[2], n.chain[3],
       n.chain[4], n.chain[5], n.chain[6], n.chain[7],
       start[0], start[1], start[2], start[3], low, high, n.size, n.flags]
  let s := rounds 7 s n.block
  Vector.ofFn fun (i : Fin 8) => s[i.val] ^^^ s[i.val + 8]

def join (left right : Node) : Node where
  chain := start
  block := left.compress ++ right.compress
  counter := 0
  size := 64
  flags := parent

end Node

/-- The list cut into pieces of `n` elements, the last one possibly shorter. -/
def pieces (n : Nat) (xs : List UInt8) : List (List UInt8) :=
  if n = 0 ∨ (xs.drop n).isEmpty then [xs] else xs.take n :: pieces n (xs.drop n)
termination_by xs.length
decreasing_by
  simp_all only [List.isEmpty_iff, List.drop_eq_nil_iff, List.length_drop]
  omega

/-- The word of four bytes, the lowest byte first; missing bytes are zero. -/
def word (bytes : Array UInt8) (offset : Nat) : UInt32 :=
  let byte (i : Nat) : UInt32 := (bytes[offset + i]?.getD 0).toUInt32
  byte 0 ||| (byte 1 <<< 8) ||| (byte 2 <<< 16) ||| (byte 3 <<< 24)

def blockOf (bytes : List UInt8) : Block :=
  let bytes := bytes.toArray
  Vector.ofFn fun i => word bytes (4 * i.val)

/-- The node of one chunk: its blocks chained, the last one left open. -/
def chunkNode (counter : UInt64) (chain : Chain) (flags : UInt32) : List (List UInt8) → Node
  | [] => ⟨chain, blockOf [], counter, 0, flags ||| Node.chunkEnd⟩
  | [last] => ⟨chain, blockOf last, counter, UInt32.ofNat last.length, flags ||| Node.chunkEnd⟩
  | block :: rest =>
      let node : Node := ⟨chain, blockOf block, counter, 64, flags⟩
      chunkNode counter node.compress 0 rest

def chunkNodes (counter : UInt64) : List (List UInt8) → List Node
  | [] => []
  | chunk :: rest =>
      chunkNode counter start Node.chunkStart (pieces 64 chunk) :: chunkNodes (counter + 1) rest

/-- The largest power of two below `n`, for `n` at least two. -/
def leftCount (n : Nat) : Nat :=
  Nat.pow 2 (n - 1).log2

theorem leftCount_pos (n : Nat) : 0 < leftCount n :=
  Nat.two_pow_pos _

theorem leftCount_lt {n : Nat} (h : 2 ≤ n) : leftCount n < n := by
  have below : leftCount n ≤ n - 1 := Nat.log2_self_le (by omega)
  omega

def tree (first : Node) : List Node → Node
  | [] => first
  | second :: more =>
      let k := leftCount (more.length + 2)
      match _hl : (first :: second :: more).take k, _hr : (first :: second :: more).drop k with
      | l :: ls, r :: rs => Node.join (tree l ls) (tree r rs)
      | _, _ => first
termination_by rest => rest.length
decreasing_by
  all_goals
    have below := leftCount_lt (n := more.length + 2) (by omega)
    have above := leftCount_pos (more.length + 2)
    have left := congrArg List.length _hl
    have right := congrArg List.length _hr
    simp only [List.length_take, List.length_drop, List.length_cons, k] at *
    omega

def hash (bytes : List UInt8) : Chain :=
  match chunkNodes 0 (pieces 1024 bytes) with
  | [] => start
  | first :: rest =>
      let top := tree first rest
      { top with counter := 0, flags := top.flags ||| Node.root }.compress

/-- The first four bytes of the hash as a number, the lowest byte first. -/
def short (bytes : List UInt8) : UInt32 :=
  (hash bytes)[0]

end ArenaPeak.Digest
