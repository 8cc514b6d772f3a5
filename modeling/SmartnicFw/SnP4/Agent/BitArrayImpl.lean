import SmartnicFw.Lib.CountedLoop
import SmartnicFw.SnP4.Agent.BitArray

/-!
This module contains the class `BitArray` as it is written (`stats.cpp`), with the loops over its
words and bits, and several arrays of one size that are worked on by turns.
-/

structure BitArrayImpl where
  nbits : UInt64
  nwords : UInt64
  words : List BitArray.Word
  upperMask : BitArray.Word

namespace BitArrayImpl

open BitArray (Word fullMask)

def nbitsPerWord : UInt64 := 64

def store (words : List Word) (w : Nat) (word : Word) : Option (List Word) :=
  if w < words.length then some (words.set w word) else none

-- `fuel` bounds the loops, which count with an `unsigned int`
def clearAll (fuel : Nat) (v : BitArrayImpl) : Option BitArrayImpl := do
  let words ← CountedLoop.loop v.nwords.toNat (fun w words => store words w.toNat 0) fuel 0 v.words
  some { v with words }

-- The constructor. `garbage` is what the words have before they are cleared.
def new (fuel : Nat) (nbits : UInt64) (garbage : Nat → Word) : Option BitArrayImpl :=
  let nwords := if nbits > nbitsPerWord then (nbits + nbitsPerWord - 1) / nbitsPerWord else 1
  let rem := nbits % nbitsPerWord
  clearAll fuel {
    nbits
    nwords
    words := (List.range nwords.toNat).map garbage
    upperMask := if rem > 0 then (1#64 <<< rem.toNat) - 1 else fullMask }

-- The copy constructor
def copy (fuel : Nat) (src : BitArrayImpl) (garbage : Nat → Word) : Option BitArrayImpl := do
  let v ← new fuel src.nbits garbage
  let words ← CountedLoop.loop v.nwords.toNat
    (fun w words => do
      let word ← src.words[w.toNat]?
      store words w.toNat word) fuel 0 v.words
  some { v with words }

def isBitSet (v : BitArrayImpl) (pos : UInt32) : Option Bool :=
  if pos.toUInt64 < v.nbits then do
    let w := pos.toNat / 64
    let p := pos.toNat % 64
    let word ← v.words[w]?
    some (word &&& (1#64 <<< p) != 0)
  else
    some false

def isBitCleared (v : BitArrayImpl) (pos : UInt32) : Option Bool := do
  let value ← v.isBitSet pos
  some (! value)

def size (v : BitArrayImpl) : UInt64 := v.nbits

def countAllSet (fuel : Nat) (v : BitArrayImpl) : Option UInt64 :=
  CountedLoop.loop v.nbits.toNat
    (fun pos count => do
      if ← v.isBitSet pos then
        some (count + 1)
      else
        some count) fuel 0 0

def countAllCleared (fuel : Nat) (v : BitArrayImpl) : Option UInt64 := do
  let count ← v.countAllSet fuel
  some (v.nbits - count)

def isAllSet (fuel : Nat) (v : BitArrayImpl) : Option Bool := do
  let full ← CountedLoop.all (v.nwords - 1).toNat
    (fun w => do
      let word ← v.words[w.toNat]?
      some (word == fullMask)) fuel 0
  if full then do
    let word ← v.words[(v.nwords - 1).toNat]?
    some (word == v.upperMask)
  else
    some false

def isAllCleared (fuel : Nat) (v : BitArrayImpl) : Option Bool :=
  CountedLoop.all v.nwords.toNat
    (fun w => do
      let word ← v.words[w.toNat]?
      some (word == 0)) fuel 0

-- What `set_bit`, `clear_bit` and `negate_bit` share
def changeBit (f : Word → Word → Word) (v : BitArrayImpl) (pos : UInt32) : Option BitArrayImpl :=
  if pos.toUInt64 < v.nbits then do
    let w := pos.toNat / 64
    let p := pos.toNat % 64
    let word ← v.words[w]?
    let words ← store v.words w (f word (1#64 <<< p))
    some { v with words }
  else
    some v

def setBit : BitArrayImpl → UInt32 → Option BitArrayImpl := changeBit fun word bit => word ||| bit

def clearBit : BitArrayImpl → UInt32 → Option BitArrayImpl :=
  changeBit fun word bit => word &&& ~~~bit

def negateBit : BitArrayImpl → UInt32 → Option BitArrayImpl :=
  changeBit fun word bit => word ^^^ bit

def setAll (fuel : Nat) (v : BitArrayImpl) : Option BitArrayImpl := do
  let words ← CountedLoop.loop (v.nwords - 1).toNat
    (fun w words => store words w.toNat fullMask) fuel 0 v.words
  let words ← store words (v.nwords - 1).toNat v.upperMask
  some { v with words }

def negateAll (fuel : Nat) (v : BitArrayImpl) : Option BitArrayImpl := do
  let words ← CountedLoop.loop (v.nwords - 1).toNat
    (fun w words => do
      let word ← words[w.toNat]?
      store words w.toNat (word ^^^ fullMask)) fuel 0 v.words
  let word ← words[(v.nwords - 1).toNat]?
  let words ← store words (v.nwords - 1).toNat (word ^^^ v.upperMask)
  some { v with words }

def assignBit (v : BitArrayImpl) (pos : UInt32) (value : Bool) : Option BitArrayImpl :=
  if value then v.setBit pos else v.clearBit pos

def assignAll (fuel : Nat) (v : BitArrayImpl) (value : Bool) : Option BitArrayImpl :=
  if value then v.setAll fuel else v.clearAll fuel

-- What `&=` and `|=` share. A failed assertion ends the process.
def assignWords (f : Word → Word → Word) (fuel : Nat) (v rhs : BitArrayImpl)
    : Option BitArrayImpl :=
  if v.nwords = rhs.nwords then do
    let words ← CountedLoop.loop v.nwords.toNat
      (fun w words => do
        let word ← words[w.toNat]?
        let other ← rhs.words[w.toNat]?
        store words w.toNat (f word other)) fuel 0 v.words
    some { v with words }
  else
    none

def andAssign : Nat → BitArrayImpl → BitArrayImpl → Option BitArrayImpl :=
  assignWords fun word other => word &&& other

def orAssign : Nat → BitArrayImpl → BitArrayImpl → Option BitArrayImpl :=
  assignWords fun word other => word ||| other

-- An operation on the arrays that there are, each by its number
inductive Command where
  | new (garbage : Nat → Word)
  | copy (src : Nat) (garbage : Nat → Word)
  | setBit (dst : Nat) (pos : UInt32)
  | clearBit (dst : Nat) (pos : UInt32)
  | negateBit (dst : Nat) (pos : UInt32)
  | assignBit (dst : Nat) (pos : UInt32) (value : Bool)
  | setAll (dst : Nat)
  | clearAll (dst : Nat)
  | negateAll (dst : Nat)
  | assignAll (dst : Nat) (value : Bool)
  | andAssign (dst rhs : Nat)
  | orAssign (dst rhs : Nat)

-- There is no result where there is no such array
def change {α : Type} (vs : List α) (dst : Nat) (f : α → Option α) : Option (List α) := do
  let v ← vs[dst]?
  let v ← f v
  some (vs.set dst v)

def step (fuel : Nat) (nbits : UInt64) (vs : List BitArrayImpl)
    : Command → Option (List BitArrayImpl)
  | .new garbage => do
    let v ← new fuel nbits garbage
    some (vs ++ [v])
  | .copy src garbage => do
    let src ← vs[src]?
    let v ← src.copy fuel garbage
    some (vs ++ [v])
  | .setBit dst pos => change vs dst fun v => v.setBit pos
  | .clearBit dst pos => change vs dst fun v => v.clearBit pos
  | .negateBit dst pos => change vs dst fun v => v.negateBit pos
  | .assignBit dst pos value => change vs dst fun v => v.assignBit pos value
  | .setAll dst => change vs dst fun v => v.setAll fuel
  | .clearAll dst => change vs dst fun v => v.clearAll fuel
  | .negateAll dst => change vs dst fun v => v.negateAll fuel
  | .assignAll dst value => change vs dst fun v => v.assignAll fuel value
  | .andAssign dst rhs => do
    let rhs ← vs[rhs]?
    change vs dst fun v => v.andAssign fuel rhs
  | .orAssign dst rhs => do
    let rhs ← vs[rhs]?
    change vs dst fun v => v.orAssign fuel rhs

def run (fuel : Nat) (nbits : UInt64) (commands : List Command) : Option (List BitArrayImpl) :=
  commands.foldlM (step fuel nbits) []

end BitArrayImpl

-- A vector of booleans, with the same operations
namespace BoolVector

open BitArrayImpl (Command change)

variable {n : Nat}

def changeBit (f : Bool → Bool) (a : Fin n → Bool) (pos : Nat) : Fin n → Bool :=
  fun i => if i.val = pos then f (a i) else a i

def const (value : Bool) : Fin n → Bool := fun _ => value

def step (as : List (Fin n → Bool)) : Command → Option (List (Fin n → Bool))
  | .new _ => some (as ++ [const false])
  | .copy src _ => do
    let a ← as[src]?
    some (as ++ [a])
  | .setBit dst pos => change as dst fun a => some (changeBit (fun _ => true) a pos.toNat)
  | .clearBit dst pos => change as dst fun a => some (changeBit (fun _ => false) a pos.toNat)
  | .negateBit dst pos => change as dst fun a => some (changeBit not a pos.toNat)
  | .assignBit dst pos value => change as dst fun a => some (changeBit (fun _ => value) a pos.toNat)
  | .setAll dst => change as dst fun _ => some (const true)
  | .clearAll dst => change as dst fun _ => some (const false)
  | .negateAll dst => change as dst fun a => some fun i => ! a i
  | .assignAll dst value => change as dst fun _ => some (const value)
  | .andAssign dst rhs => do
    let b ← as[rhs]?
    change as dst fun a => some fun i => a i && b i
  | .orAssign dst rhs => do
    let b ← as[rhs]?
    change as dst fun a => some fun i => a i || b i

def run (n : Nat) (commands : List Command) : Option (List (Fin n → Bool)) :=
  commands.foldlM step []

end BoolVector
