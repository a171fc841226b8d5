import ReactiveTemplate.Digest.Bytes
/-!
# Xxh3 — the 64-bit XXH3 hash with seed zero

The hash has one rule per range of lengths: up to 3, 8, 16, 128 and 240 bytes, and a striped rule beyond.
-/
namespace ReactiveTemplate.Digest
namespace Xxh3

def prime32x1 : UInt64 := 0x9E3779B1
def prime32x2 : UInt64 := 0x85EBCA77
def prime32x3 : UInt64 := 0xC2B2AE3D
def prime64x1 : UInt64 := 0x9E3779B185EBCA87
def prime64x2 : UInt64 := 0xC2B2AE3D27D4EB4F
def prime64x3 : UInt64 := 0x165667B19E3779F9
def prime64x4 : UInt64 := 0x85EBCA77C2B2AE63
def prime64x5 : UInt64 := 0x27D4EB2F165667C5
def mixer1 : UInt64 := 0x165667919E3779F9
def mixer2 : UInt64 := 0x9FB21C651E98DF25

def secretNumber : Nat :=
  0xb8fe6c3923a44bbe7c01812cf721ad1cded46de9839097db7240a4a4b7b3671fcb79e64eccc0e578825ad07dccff7221b8084674f743248ee03590e6813a264c3c2852bb91c300cb88d0658b1b532ea371644897a20df94e3819ef46a9deacd8a8fa763fe39c343ff9dcbbc7c70b4f1d8a51e04bcdb45931c89f7ec9d9787364eac5ac8334d3ebc3c581a0fffa1363eb170ddd51b7f0da49d316552629d4689e2b16be587d47a1fc8ff8b8d17ad031ce45cb3a8f95160428afd7fbcabb4b407e

def secret : List UInt8 := bytesOf 192 secretNumber

def key (offset : Nat) : UInt64 := word64 secret offset

def rotateLeft (x : UInt64) (n : UInt64) : UInt64 := (x <<< n) ||| (x >>> (64 - n))

def avalanche (h : UInt64) : UInt64 :=
  let h := (h ^^^ (h >>> 37)) * mixer1
  h ^^^ (h >>> 32)

def avalancheShort (h : UInt64) : UInt64 :=
  let h := (h ^^^ (h >>> 33)) * prime64x2
  let h := (h ^^^ (h >>> 29)) * prime64x3
  h ^^^ (h >>> 32)

def multiplyFold (x y : UInt64) : UInt64 :=
  let product := x.toNat * y.toNat
  UInt64.ofNat (product % Nat.pow 2 64) ^^^ UInt64.ofNat (product / Nat.pow 2 64)

def swapBytes (x : UInt64) : UInt64 :=
  UInt64.ofNat (littleEndian 8 (bytesOf 8 x.toNat))

def byteAt (bs : List UInt8) (i : Nat) : UInt64 := UInt64.ofNat (bs.getD i 0).toNat

def hashUpTo3 (bs : List UInt8) : UInt64 :=
  let len := bs.length
  let combined := (byteAt bs 0 <<< 16) ||| (byteAt bs (len / 2) <<< 24) ||| byteAt bs (len - 1) |||
    (UInt64.ofNat len <<< 8)
  avalancheShort (combined ^^^ (word32 secret 0 ^^^ word32 secret 4))

def hashUpTo8 (bs : List UInt8) : UInt64 :=
  let len := bs.length
  let keyed := (word32 bs (len - 4) + (word32 bs 0 <<< 32)) ^^^ (key 8 ^^^ key 16)
  let h := (keyed ^^^ rotateLeft keyed 49 ^^^ rotateLeft keyed 24) * mixer2
  let h := (h ^^^ ((h >>> 35) + UInt64.ofNat len)) * mixer2
  h ^^^ (h >>> 28)

def hashUpTo16 (bs : List UInt8) : UInt64 :=
  let len := bs.length
  let low := word64 bs 0 ^^^ (key 24 ^^^ key 32)
  let high := word64 bs (len - 8) ^^^ (key 40 ^^^ key 48)
  avalanche (UInt64.ofNat len + swapBytes low + high + multiplyFold low high)

def mix16 (bs : List UInt8) (offset : Nat) (at_ : Nat) : UInt64 :=
  multiplyFold (word64 bs offset ^^^ key at_) (word64 bs (offset + 8) ^^^ key (at_ + 8))

def hashUpTo128 (bs : List UInt8) : UInt64 :=
  let len := bs.length
  let pairs := (len - 1) / 32 + 1
  let total := (List.range pairs).foldl
    (fun acc i => acc + mix16 bs (16 * i) (32 * i) + mix16 bs (len - 16 * (i + 1)) (32 * i + 16))
    (UInt64.ofNat len * prime64x1)
  avalanche total

def hashUpTo240 (bs : List UInt8) : UInt64 :=
  let len := bs.length
  let first := (List.range 8).foldl (fun acc i => acc + mix16 bs (16 * i) (16 * i)) (UInt64.ofNat len * prime64x1)
  let rest := (List.range (len / 16 - 8)).foldl
    (fun acc i => acc + mix16 bs (16 * (i + 8)) (16 * i + 3)) (avalanche first)
  avalanche (rest + mix16 bs (len - 16) 119)

/-- One lane of a stripe: the words `(accumulator, its neighbour's input, input, key)`. -/
def lane (acc neighbour value keyWord : UInt64) : UInt64 :=
  let keyed := value ^^^ keyWord
  acc + neighbour + (keyed &&& (0xFFFFFFFF : UInt64)) * (keyed >>> 32)

def accumulate (acc : List UInt64) (bs : List UInt8) (at_ : Nat) : List UInt64 :=
  acc.zipIdx.map (fun (a, i) =>
    lane a (word64 bs (8 * (if i % 2 = 0 then i + 1 else i - 1))) (word64 bs (8 * i)) (key (at_ + 8 * i)))

def scramble (acc : List UInt64) : List UInt64 :=
  acc.zipIdx.map (fun (a, i) => (a ^^^ (a >>> 47) ^^^ key (128 + 8 * i)) * prime32x1)

/-- `count` stripes from the start of `bs`, numbered from `n`; every sixteenth is followed by a scramble. -/
def stripes : Nat → Nat → List UInt8 → List UInt64 → List UInt64
  | 0, _, _, acc => acc
  | count + 1, n, bs, acc =>
    let acc := accumulate acc bs (8 * (n % 16))
    stripes count (n + 1) (bs.drop 64) (if n % 16 = 15 then scramble acc else acc)

def hashLong (bs : List UInt8) : UInt64 :=
  let len := bs.length
  let start := [prime32x3, prime64x1, prime64x2, prime64x3, prime64x4, prime32x2, prime64x5, prime32x1]
  let acc := accumulate (stripes ((len - 1) / 64) 0 bs start) (bs.drop (len - 64)) 121
  let word (i : Nat) : UInt64 := acc.getD i 0 ^^^ key (11 + 8 * i)
  avalanche ((List.range 4).foldl (fun h i => h + multiplyFold (word (2 * i)) (word (2 * i + 1)))
    (UInt64.ofNat len * prime64x1))

def hash (bs : List UInt8) : UInt64 :=
  let len := bs.length
  if len = 0 then avalancheShort (key 56 ^^^ key 64)
  else if len ≤ 3 then hashUpTo3 bs
  else if len ≤ 8 then hashUpTo8 bs
  else if len ≤ 16 then hashUpTo16 bs
  else if len ≤ 128 then hashUpTo128 bs
  else if len ≤ 240 then hashUpTo240 bs
  else hashLong bs

end Xxh3

def short (content : String) : String :=
  String.ofList (base64Url (bytesOf 8 (Xxh3.hash (utf8 content)).toNat))

end ReactiveTemplate.Digest
