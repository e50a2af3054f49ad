import DocetOS.Words
import DocetOS.Lib.Chain

/-!
# The hashtable (`hashtable.c`)

A table is one block of memory: the `OS_hashtable_t` struct, an array of
buckets and `maximumCapacity` value structs. A value struct is named by its
position among the value structs, and a pointer to one is an `Option Nat`
(`none` is the null pointer). Free value structs are linked through
`nextHashtableValue`, and so are the structs of one bucket.

`newHashtable` takes the previous contents of the block, because it does not
write every field: the `nextHashtableValue` of the last value struct and
`validValueFlag` keep what the memory held.

The loops over a chain take a step bound. A chain of a table holds at most
`maximumCapacity` structs, so the callers pass that.
-/

namespace DocetOS

/-- `OS_hashtable_value_t`. -/
structure HashtableValue where
  nextHashtableValue : Option Nat
  underlyingData : Nat
  key : Nat
deriving DecidableEq, Repr

/-- `OS_hashtable_t` with the bucket array and the value structs behind it. -/
structure Hashtable where
  numberOfBuckets : Nat
  maximumCapacity : Nat
  remainingCapacity : Nat
  validValueFlag : Nat
  freeHashtableValueStructLinkedList : Option Nat
  bucketArray : Nat → Option Nat
  values : Nat → HashtableValue

/-- The third argument of `OS_hashtable_put`. -/
inductive DuplicateCheck where
  | disableDuplicateChecks
  | rejectMultipleValuesPerKey
  | rejectMultipleIdenticalValuesPerKey
deriving DecidableEq, Repr

/-- `djb2_hash`: eight rounds over the nibbles of a word. -/
def djb2Hash (thingToHash : Nat) : Nat :=
  ((List.range 8).foldl (fun (hash, c) i =>
      let c := wrap (c + thingToHash >>> (i * 4))
      (wrap ((hash <<< 5) + hash) ^^^ c, c))
    (5381, 0)).1

namespace Hashtable

/-! ## Initialisation -/

/-- The loop of `new_hashtable` that clears and links the value structs after
`hashVal`. -/
def linkValues : Nat → Nat → (Nat → HashtableValue) → (Nat → HashtableValue)
  | 0, _, values => values
  | i + 1, hashVal, values =>
    let nextElement := hashVal + 1
    let values := Function.update values nextElement
      { values nextElement with key := 0, underlyingData := 0 }
    let values := Function.update values hashVal
      { values hashVal with nextHashtableValue := some nextElement }
    linkValues i nextElement values

/-- `new_hashtable` on a block that held `memory` (its value structs) and
`flag` (its `validValueFlag`). -/
def newHashtable (capacity numberOfBuckets : Nat) (memory : Nat → HashtableValue)
    (flag : Nat) : Hashtable where
  numberOfBuckets := numberOfBuckets
  maximumCapacity := capacity
  remainingCapacity := capacity
  validValueFlag := flag
  freeHashtableValueStructLinkedList := some 0
  bucketArray := fun _ => none
  values := linkValues (capacity - 1) 0
    (Function.update memory 0 { memory 0 with key := 0, underlyingData := 0 })

/-! ## Operations -/

/-- The bucket a key belongs to. -/
def bucketNumber (t : Hashtable) (key : Nat) : Nat :=
  djb2Hash key % t.numberOfBuckets

/-- The duplicate scan of `OS_hashtable_put` over the rest of a bucket. -/
def hasDuplicate (t : Hashtable) (key value : Nat) (checkForDuplicates : DuplicateCheck) :
    Nat → Option Nat → Bool
  | 0, _ => false
  | _ + 1, none => false
  | f + 1, some hashVal =>
    if checkForDuplicates = .rejectMultipleValuesPerKey ∧ (t.values hashVal).key = key then
      true
    else if checkForDuplicates = .rejectMultipleIdenticalValuesPerKey ∧
        (t.values hashVal).underlyingData = value then
      true
    else
      hasDuplicate t key value checkForDuplicates f (t.values hashVal).nextHashtableValue

/-- The last part of `OS_hashtable_put`: take `hashtableVal` off the free list,
fill it and make it the first struct of its bucket. -/
def link (t : Hashtable) (bucketNumber hashtableVal : Nat) (key value : Nat) : Hashtable :=
  { t with
      freeHashtableValueStructLinkedList := (t.values hashtableVal).nextHashtableValue
      values := Function.update t.values hashtableVal
        { nextHashtableValue := t.bucketArray bucketNumber
          underlyingData := value
          key := key }
      bucketArray := Function.update t.bucketArray bucketNumber (some hashtableVal)
      remainingCapacity := t.remainingCapacity - 1 }

/-- `OS_hashtable_put`; the second component is the status code. -/
def put (t : Hashtable) (key value : Nat) (checkForDuplicates : DuplicateCheck) :
    Hashtable × Nat :=
  if t.remainingCapacity = 0 then (t, 0)
  else
    let bucketNumber := t.bucketNumber key
    if checkForDuplicates ≠ .disableDuplicateChecks ∧
        t.hasDuplicate key value checkForDuplicates t.maximumCapacity
          (t.bucketArray bucketNumber) then
      (t, 0)
    else
      match t.freeHashtableValueStructLinkedList with
      -- the free list only runs dry when `remainingCapacity` is 0
      | none => (t, 0)
      | some hashtableVal => (t.link bucketNumber hashtableVal key value, 1)

/-- The search loop of `OS_hashtable_get`. -/
def getLoop (t : Hashtable) (key : Nat) : Nat → Option Nat → Option Nat
  | 0, _ => none
  | _ + 1, none => none
  | f + 1, some hashVal =>
    if (t.values hashVal).key = key then some (t.values hashVal).underlyingData
    else getLoop t key f (t.values hashVal).nextHashtableValue

/-- `OS_hashtable_get`: the table with its `validValueFlag` set, and the value
(0 when there is none). -/
def get (t : Hashtable) (key : Nat) : Hashtable × Nat :=
  match t.getLoop key t.maximumCapacity (t.bucketArray (t.bucketNumber key)) with
  | some value => ({ t with validValueFlag := 1 }, value)
  | none => ({ t with validValueFlag := 0 }, NULL)

/-- The search loop of `OS_hashtable_getNthValueAtKey`. -/
def getNthLoop (t : Hashtable) (key : Nat) : Nat → Nat → Option Nat → Option Nat
  | 0, _, _ => none
  | _ + 1, _, none => none
  | f + 1, n, some hashVal =>
    if (t.values hashVal).key = key then
      if n ≠ 0 then getNthLoop t key f (n - 1) (t.values hashVal).nextHashtableValue
      else some (t.values hashVal).underlyingData
    else getNthLoop t key f n (t.values hashVal).nextHashtableValue

/-- `OS_hashtable_getNthValueAtKey`. -/
def getNthValueAtKey (t : Hashtable) (key : Nat) (n : Nat) : Hashtable × Nat :=
  match t.getNthLoop key t.maximumCapacity n (t.bucketArray (t.bucketNumber key)) with
  | some value => ({ t with validValueFlag := 1 }, value)
  | none => ({ t with validValueFlag := 0 }, NULL)

/-- The search loop of `OS_hashtable_remove`: the struct found and the one
before it in its bucket. -/
def removeLoop (t : Hashtable) (key : Nat) :
    Nat → Option Nat → Option Nat → Option (Option Nat × Nat)
  | 0, _, _ => none
  | _ + 1, _, none => none
  | f + 1, prevHashVal, some hashVal =>
    if (t.values hashVal).key = key then some (prevHashVal, hashVal)
    else removeLoop t key f (some hashVal) (t.values hashVal).nextHashtableValue

/-- The matched branch of `OS_hashtable_remove`: unlink `hashVal` from its
bucket, clear it and push it onto the free list. -/
def unlink (t : Hashtable) (bucketNumber : Nat) (prevHashVal : Option Nat) (hashVal : Nat) :
    Hashtable :=
  let next := (t.values hashVal).nextHashtableValue
  { t with
      bucketArray :=
        match prevHashVal with
        | some _ => t.bucketArray
        | none => Function.update t.bucketArray bucketNumber next
      values :=
        Function.update
          (match prevHashVal with
          | some prev =>
            Function.update t.values prev { t.values prev with nextHashtableValue := next }
          | none => t.values)
          hashVal
          { nextHashtableValue := t.freeHashtableValueStructLinkedList
            underlyingData := 0
            key := 0 }
      freeHashtableValueStructLinkedList := some hashVal
      remainingCapacity := t.remainingCapacity + 1
      validValueFlag := 1 }

/-- `OS_hashtable_remove`: the table and the value removed (0 when there is
none). -/
def remove (t : Hashtable) (key : Nat) : Hashtable × Nat :=
  match t.removeLoop key t.maximumCapacity none (t.bucketArray (t.bucketNumber key)) with
  | none => ({ t with validValueFlag := 0 }, NULL)
  | some (prevHashVal, hashVal) =>
    (t.unlink (t.bucketNumber key) prevHashVal hashVal, (t.values hashVal).underlyingData)

/-- `OS_hashtable_getFirstElementOfNthBucket`. -/
def getFirstElementOfNthBucket (t : Hashtable) (n : Nat) : Hashtable × Option Nat :=
  if n > decr t.numberOfBuckets then ({ t with validValueFlag := 0 }, none)
  else
    match t.bucketArray n with
    | some val => ({ t with validValueFlag := 1 }, some val)
    | none => ({ t with validValueFlag := 0 }, none)

end Hashtable

end DocetOS
