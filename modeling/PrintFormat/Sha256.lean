import PrintFormat.Numeral

/-!
The SHA-256 digest. A message is padded to whole blocks of 64 bytes, each block
is expanded to a schedule of 64 words, and each word of the schedule is a round
on a state of eight words. The words of the state and of the rounds are the
first fractional bits of roots of the first primes.
-/
namespace PrintFormat.Sha256

/-- The state before the first block. -/
def initialState : List UInt32 :=
  [0x6a09e667, 0xbb67ae85, 0x3c6ef372, 0xa54ff53a, 0x510e527f, 0x9b05688c,
    0x1f83d9ab, 0x5be0cd19]

/-- The constants of the rounds. -/
def roundConstants : List UInt32 :=
  [0x428a2f98, 0x71374491, 0xb5c0fbcf, 0xe9b5dba5, 0x3956c25b, 0x59f111f1,
    0x923f82a4, 0xab1c5ed5, 0xd807aa98, 0x12835b01, 0x243185be, 0x550c7dc3,
    0x72be5d74, 0x80deb1fe, 0x9bdc06a7, 0xc19bf174, 0xe49b69c1, 0xefbe4786,
    0x0fc19dc6, 0x240ca1cc, 0x2de92c6f, 0x4a7484aa, 0x5cb0a9dc, 0x76f988da,
    0x983e5152, 0xa831c66d, 0xb00327c8, 0xbf597fc7, 0xc6e00bf3, 0xd5a79147,
    0x06ca6351, 0x14292967, 0x27b70a85, 0x2e1b2138, 0x4d2c6dfc, 0x53380d13,
    0x650a7354, 0x766a0abb, 0x81c2c92e, 0x92722c85, 0xa2bfe8a1, 0xa81a664b,
    0xc24b8b70, 0xc76c51a3, 0xd192e819, 0xd6990624, 0xf40e3585, 0x106aa070,
    0x19a4c116, 0x1e376c08, 0x2748774c, 0x34b0bcb5, 0x391c0cb3, 0x4ed8aa4a,
    0x5b9cca4f, 0x682e6ff3, 0x748f82ee, 0x78a5636f, 0x84c87814, 0x8cc70208,
    0x90befffa, 0xa4506ceb, 0xbef9a3f7, 0xc67178f2]

/-- A word rotated to the right. -/
def rotateRight (w n : UInt32) : UInt32 := (w >>> n) ||| (w <<< (32 - n))

def smallSigma0 (w : UInt32) : UInt32 := rotateRight w 7 ^^^ rotateRight w 18 ^^^ (w >>> 3)

def smallSigma1 (w : UInt32) : UInt32 := rotateRight w 17 ^^^ rotateRight w 19 ^^^ (w >>> 10)

def largeSigma0 (w : UInt32) : UInt32 :=
  rotateRight w 2 ^^^ rotateRight w 13 ^^^ rotateRight w 22

def largeSigma1 (w : UInt32) : UInt32 :=
  rotateRight w 6 ^^^ rotateRight w 11 ^^^ rotateRight w 25

/-- The bits of `f` where `e` has ones and those of `g` elsewhere. -/
def choose (e f g : UInt32) : UInt32 := (e &&& f) ^^^ ((~~~e) &&& g)

/-- The bits that at least two of three words have. -/
def majority (a b c : UInt32) : UInt32 := (a &&& b) ^^^ (a &&& c) ^^^ (b &&& c)

/-- A message with a one bit, zeros and its length in bits behind it. -/
def pad (message : Bytes) : Bytes :=
  let zeros := (119 - message.length % 64) % 64
  message ++ 0x80 :: List.replicate zeros 0
    ++ (places 256 8 (8 * message.length)).map Nat.toUInt8

/-- The words that bytes are, four at a time with the highest first. -/
def wordsOf : Bytes → List UInt32
  | a :: b :: c :: d :: rest =>
      (ofDigits 256 [a.toNat, b.toNat, c.toNat, d.toNat]).toUInt32 :: wordsOf rest
  | _ => []

/-- A number of words added to a schedule that is held with its latest word
first. -/
def extend : Nat → List UInt32 → List UInt32
  | 0, latest => latest
  | n + 1, latest =>
      let before (k : Nat) := latest.getD (k - 1) 0
      extend n ((smallSigma1 (before 2) + before 7 + smallSigma0 (before 15) + before 16) :: latest)

/-- The schedule of the sixteen words of a block. -/
def schedule (block : List UInt32) : List UInt32 := (extend 48 block.reverse).reverse

/-- One round, on a constant and a word of the schedule. -/
def round (state : List UInt32) (step : UInt32 × UInt32) : List UInt32 :=
  match state with
  | [a, b, c, d, e, f, g, h] =>
      let t1 := h + largeSigma1 e + choose e f g + step.1 + step.2
      let t2 := largeSigma0 a + majority a b c
      [t1 + t2, a, b, c, d + t1, e, f, g]
  | state => state

/-- The state behind a block. -/
def compress (state block : List UInt32) : List UInt32 :=
  let rounds := (roundConstants.zip (schedule block)).foldl round state
  List.zipWith (· + ·) state rounds

/-- The state behind a number of blocks. -/
def compressAll : Nat → List UInt32 → List UInt32 → List UInt32
  | 0, state, _ => state
  | n + 1, state, words => compressAll n (compress state (words.take 16)) (words.drop 16)

/-- The eight words of the digest of a message. -/
def digest (message : Bytes) : List UInt32 :=
  let words := wordsOf (pad message)
  compressAll (words.length / 16) initialState words

/-- The digest in hexadecimal digits. -/
def hexDigest (message : Bytes) : Bytes :=
  (digest message).flatMap fun w => hexGroup false 8 w.toNat

end PrintFormat.Sha256
