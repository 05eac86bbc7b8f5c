import V2G.Value.Equality

/-!
# Hashing

A hash of values that agrees with structural equality, over any way to digest texts,
numbers and sequences of hashes. The hash of a set must not hang on the order of its
entries, nor on how often each occurs.
-/

namespace V2G

/-- A way to hash the parts of a value. -/
structure Digest (H : Type) where
  none : H
  integer : Int → H
  /-- A number that is no integer. -/
  fraction : Double → H
  text : String → H
  bytes : List UInt8 → H
  url : String → H
  tuple : List H → H
  set : List H → H

/-- Sets of hashes are digested as sets. -/
def Digest.Lawful {H : Type} (d : Digest H) : Prop :=
  ∀ xs ys : List H, (∀ h, h ∈ xs ↔ h ∈ ys) → d.set xs = d.set ys

namespace Value

variable {H : Type}

def hashNumber (d : Digest H) (v : Value) : H :=
  match v.integer? with
  | some n => d.integer n
  | Option.none => match v with | .float x => d.fraction x | _ => d.none

/-- A value waiting to be hashed, as a set or in order. The error is the name of a type
that has no hash. -/
abbrev Hashable (H : Type) := (isSet : Bool) → Except String H

def fieldHash (d : Digest H) (hs : Keyed (Hashable H)) (name : String) : Hashable H :=
  (Keyed.get? hs name).getD fun _ => .ok d.none

mutual

def hash (d : Digest H) : Value → Hashable H
  | .none, _ => .ok d.none
  | .bool b, _ => .ok (hashNumber d (.bool b))
  | .int n, _ => .ok (hashNumber d (.int n))
  | .float x, _ => .ok (hashNumber d (.float x))
  | .text s, _ => .ok (d.text s)
  | .identifier _ s, _ => .ok (d.text s)
  | .token _ s, _ => .ok (d.text s)
  | .bytes data, _ => .ok (d.bytes data)
  | .url s, _ => .ok (d.url s)
  | .tuple xs, isSet => (hashAll d xs).map (if isSet then d.set else d.tuple)
  | .list xs, isSet => (hashAll d xs).map (if isSet then d.set else d.tuple)
  | .choice m v, _ => (hash d v false).map fun h => d.tuple [d.text "Choice", d.text m, h]
  | .dict _, _ => .error "dict"
  | .element e fs, _ =>
    (e.slots.mapM fun (name, isSet) => fieldHash d (fieldHashes d fs) name isSet).map
      fun hs => d.tuple (d.text e.name :: hs)
termination_by structural v => v

def hashAll (d : Digest H) : List Value → Except String (List H)
  | [] => .ok []
  | v :: vs => do return (← hash d v false) :: (← hashAll d vs)
termination_by structural vs => vs

def fieldHashes (d : Digest H) : List (String × Value) → Keyed (Hashable H)
  | [] => []
  | (k, v) :: fs => (k, hash d v) :: fieldHashes d fs
termination_by structural fs => fs

end

mutual

/-- The type that keeps a value out of sets and keys: lists and dictionaries have no plain
hash, and a sequence has one if its items have. -/
def unhashable? : Value → Option String
  | .list _ => some "list"
  | .dict _ => some "dict"
  | .tuple xs => anyUnhashable? xs
  | .choice _ v => unhashable? v
  | _ => Option.none
termination_by structural v => v

def anyUnhashable? : List Value → Option String
  | [] => Option.none
  | v :: vs => (unhashable? v).or (anyUnhashable? vs)
termination_by structural vs => vs

end

end Value

namespace Digest

def mix (h : UInt64) (n : Nat) : UInt64 := (h ^^^ n.toUInt64) * 1099511628211

/-- A digest to 64 bits. Each kind of part starts from a seed of its own. -/
def bits64 : Digest UInt64 where
  none := seed 1
  integer n := mix (mix (seed 2) n.natAbs) (if n < 0 then 1 else 0)
  fraction x := mix (seed 3) x.bits.toNat
  text s := s.toList.foldl (fun h c => mix h c.toNat) (seed 4)
  bytes data := data.foldl (fun h b => mix h b.toNat) (seed 5)
  url s := s.toList.foldl (fun h c => mix h c.toNat) (seed 6)
  tuple hs := hs.foldl (fun h k => mix h k.toNat) (seed 7)
  set hs := mix (seed 8) ((hs.eraseDups.map fun h => (mix h 8).toNat).foldl (· + ·) 0)
where
  seed (n : Nat) : UInt64 := mix 14695981039346656037 n

end Digest

end V2G
