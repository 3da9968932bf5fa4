import AdvisoryLedger.Secret.Digest

namespace AdvisoryLedger.Secret

def double (x : UInt8) : UInt8 := (x <<< 1) ^^^ (if x &&& 0x80 = 0 then 0 else 0x1b)

def times (x y : UInt8) : UInt8 :=
  ((List.range 8).foldl (fun (z : UInt8 × UInt8) i =>
    (if y.toNat.testBit i then z.1 ^^^ z.2 else z.1, double z.2)) (0, x)).1

/-- The inverse in the field, with zero for zero: the power 254 is 2 + 4 + … + 128. -/
def inverse (x : UInt8) : UInt8 :=
  ((List.range 7).foldl (fun (z : UInt8 × UInt8) _ =>
    let square := times z.2 z.2
    (times z.1 square, square)) (1, x)).1

def rotateByte (x : UInt8) (amount : UInt8) : UInt8 := (x <<< amount) ||| (x >>> (8 - amount))

/-- The substitution of a byte: its inverse, then an affine map of its bits. -/
def substitute (x : UInt8) : UInt8 :=
  let y := inverse x
  y ^^^ rotateByte y 1 ^^^ rotateByte y 2 ^^^ rotateByte y 3 ^^^ rotateByte y 4 ^^^ 0x63

def resubstitute (x : UInt8) : UInt8 :=
  inverse (rotateByte x 1 ^^^ rotateByte x 3 ^^^ rotateByte x 6 ^^^ 0x05)

def mask (xs ys : List UInt8) : List UInt8 := xs.zipWith (· ^^^ ·) ys

/-- The next round key: its first word comes from the last word of the key before it. -/
def nextRoundKey (key : List UInt8) (constant : UInt8) : List UInt8 :=
  let turned := (key.drop 13 ++ (key.drop 12).take 1).map substitute
  let first := mask (mask (key.take 4) turned) [constant, 0, 0, 0]
  let second := mask first ((key.drop 4).take 4)
  let third := mask second ((key.drop 8).take 4)
  first ++ second ++ third ++ mask third (key.drop 12)

def roundKeys (key : List UInt8) : List (List UInt8) :=
  ((List.range 10).foldl (fun (z : List (List UInt8) × UInt8) _ =>
    (nextRoundKey (z.1.headD key) z.2 :: z.1, double z.2)) ([key], 1)).1

/-- Undoes the turning of the rows; bytes stand column by column. -/
def unturnRows (block : List UInt8) : List UInt8 :=
  (List.range 16).map fun i => block.getD ((i + 12 * (i % 4)) % 16) 0

def unmixColumn (column : List UInt8) : List UInt8 :=
  (List.range 4).map fun i =>
    (List.range 4).foldl (fun sum j =>
      sum ^^^ times (column.getD ((i + j) % 4) 0) ([14, 11, 13, 9].getD j 0)) 0

def unmixColumns (block : List UInt8) : List UInt8 := (pieces 4 block).flatMap unmixColumn

def undoRounds (block : List UInt8) : List (List UInt8) → List UInt8
  | [] => block
  | [key] => mask ((unturnRows block).map resubstitute) key
  | key :: keys => undoRounds (unmixColumns (mask ((unturnRows block).map resubstitute) key)) keys

def decryptBlock (keys : List (List UInt8)) (block : List UInt8) : List UInt8 :=
  match keys with
  | [] => block
  | last :: others => undoRounds (mask block last) others

/-- Blocks after a first block that they are masked with. -/
def decryptBlocks (keys : List (List UInt8)) : List UInt8 → List (List UInt8) → List UInt8
  | _, [] => []
  | before, block :: rest => mask (decryptBlock keys block) before ++ decryptBlocks keys block rest

/-- Takes away the padding: its last byte says how many there are, all alike. -/
def unpad? (bytes : List UInt8) : Option (List UInt8) := do
  let last ← bytes.getLast?
  let count := last.toNat
  let (text, padding) := bytes.splitAt (bytes.length - count)
  if 1 ≤ count && count ≤ 16 && padding = List.replicate count last then some text else none

/-- What was encrypted; nothing unless the bytes are whole blocks that end in a padding. -/
def decrypt? (key initial encrypted : List UInt8) : Option (List UInt8) :=
  if encrypted.length % 16 = 0 then
    unpad? (decryptBlocks (roundKeys key) initial (pieces 16 encrypted))
  else none

end AdvisoryLedger.Secret
