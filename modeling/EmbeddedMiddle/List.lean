import EmbeddedMiddle.Mempool

/-!
# Lists

The doubly linked lists of `em_list.c`.  The items are blocks of a pool; the
memory behind their pointers is part of the list.
-/

namespace EmbeddedMiddle

open Foundation

/-- `none` is NULL. -/
structure EmListitem where
  data : ℤ
  next : Option ℤ
  back : Option ℤ
  deriving DecidableEq, Inhabited, Repr

structure EmList where
  mp : EmMpool
  first : Option ℤ
  last : Option ℤ
  count : ℕ
  item : ℤ → EmListitem
  deriving Inhabited

/-- `sizeof(em_listitem_t)` where pointers have 8 bytes. -/
def sizeofListitem : ℕ := 24

/-- Assign to fields of the item behind a pointer. -/
def EmList.assign (li : EmList) (target : ℤ)
    (change : EmListitem → EmListitem) : EmList :=
  { li with
    item := Function.update li.item target (change (li.item target)) }

/-- The pool gets its regions as in `em_mpool_create`. -/
def emListCreate (li : EmList) (numMaxItem : ℤ) (rawdata : ℤ) : ℤ × EmList :=
  match emMpoolCreate li.mp sizeofListitem (intToUint32 numMaxItem) rawdata with
  | (ret, mp) =>
      if ret ≠ 0 then (-1, { li with mp })
      else (0, { li with mp, count := 0, first := none, last := none })

/-- `none` is the use of NULL, here as below. -/
def emListAdd (li : EmList) (data : ℤ) : Option (ℤ × EmList) :=
  match emMpoolAllocBlock li.mp emNoWait with
  | some (some newitem, mp) =>
      let li := { li with mp }
      let li := li.assign newitem (fun old => { old with data, next := none })
      let added (li : EmList) : ℤ × EmList :=
        (0, { li with last := some newitem, count := uint32 (li.count + 1) })
      match li.first with
      | none =>
          let li := li.assign newitem (fun old => { old with back := none })
          some (added { li with first := some newitem })
      | some _ =>
          let li := li.assign newitem (fun old => { old with back := li.last })
          match li.last with
          | none => none
          | some last =>
              some (added
                (li.assign last (fun old => { old with next := newitem })))
  | some (none, mp) => some (-1, { li with mp })
  -- With EM_NO_WAIT the call always returns.
  | none => none

/-- The pointer `delitem` after `index` rounds of the loop that follows
`next`. -/
def EmList.walk (li : EmList) : ℕ → Option ℤ
  | 0 => li.first
  | i + 1 =>
      match li.walk i with
      | none => none
      | some delitem => (li.item delitem).next

def emListRemoveAt (li : EmList) (index : ℕ) : Option (ℤ × EmList) :=
  if li.count ≤ index then some (-1, li)
  else
    match li.walk index with
    | none => none
    | some delitem =>
        let li :=
          match (li.item delitem).back with
          | none => { li with first := (li.item delitem).next }
          | some back =>
              li.assign back (fun old =>
                { old with next := (li.item delitem).next })
        let li :=
          match (li.item delitem).next with
          | none => { li with last := (li.item delitem).back }
          | some next =>
              li.assign next (fun old =>
                { old with back := (li.item delitem).back })
        some (0, { li with
          mp := (emMpoolFreeBlock li.mp delitem).2
          count := li.count - 1 })

end EmbeddedMiddle
