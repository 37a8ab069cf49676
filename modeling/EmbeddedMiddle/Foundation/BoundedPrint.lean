import EmbeddedMiddle.Foundation.CString
import EmbeddedMiddle.Foundation.MachineInt
import Mathlib.Data.List.Forall2
import Mathlib.Algebra.BigOperators.Group.List.Basic

/-!
# Printing into a buffer

`snprintf`, and printers that print several pieces one behind the other with a
look at the room after each.  A printer is described by the size it needs, by
the room it keeps to and by the text it leaves behind; each description passes
from the pieces to the whole.
-/

namespace Foundation

/-- What has been written so far: no byte where nothing was written. -/
abbrev Written := ℤ → Option UInt8

namespace Written

def nothing : Written := fun _ => none

def put (written : Written) (start : ℤ) (content : List UInt8) : Written :=
  fun address =>
    if start ≤ address ∧ address < start + content.length
    then content[(address - start).toNat]? else written address

/-- The memory from `dst` on, with what was written over what was there. -/
def overlay (written : Written) (memory : ℤ → UInt8) (dst : ℤ) : Bytes :=
  fun position =>
    (written (dst + position)).getD (memory (dst + position))

@[simp] theorem put_nil (written : Written) (start : ℤ) :
    written.put start [] = written := by
  funext address
  rw [put, if_neg]
  simp only [List.length_nil]
  omega

theorem put_outside (written : Written) {start address : ℤ}
    {content : List UInt8}
    (outside : address < start ∨ start + content.length ≤ address) :
    written.put start content address = written address := by
  rw [put, if_neg]
  omega

theorem put_inside (written : Written) (start : ℤ) {content : List UInt8}
    {position : ℕ} (inside : position < content.length) :
    written.put start content (start + position) = content[position]? := by
  rw [put, if_pos (by omega)]
  congr 1
  omega

/-- The end of what was written is written again, and perhaps more. -/
theorem put_put (written : Written) (start : ℤ)
    (sofar : List UInt8) {replaced content : List UInt8}
    (covers : replaced.length ≤ content.length) :
    (written.put start (sofar ++ replaced)).put (start + sofar.length)
        content = written.put start (sofar ++ content) := by
  funext address
  simp only [put, List.length_append, Nat.cast_add]
  by_cases behind : start + sofar.length ≤ address
  · by_cases inside : address < start + sofar.length + content.length
    · rw [if_pos ⟨behind, inside⟩, if_pos (by omega),
        List.getElem?_append_right (by omega)]
      congr 1
      omega
    · rw [if_neg (by omega), if_neg (by omega), if_neg (by omega)]
  · rw [if_neg (by omega)]
    by_cases before : start ≤ address
    · rw [if_pos (by omega), if_pos (by omega),
        List.getElem?_append_left (by omega),
        List.getElem?_append_left (by omega)]
    · rw [if_neg (by omega), if_neg (by omega)]

/-- A text that was put down with a zero behind it. -/
theorem put_over_holdsText (written : Written) (memory : ℤ → UInt8) (dst : ℤ)
    (text : List UInt8) :
    ((written.put dst (text ++ [0])).overlay memory dst).HoldsText text := by
  constructor
  · apply List.ext_getElem
    · simp
    · intro position _ bound
      simp only [Bytes.read, List.getElem_map, List.getElem_range, overlay,
        Nat.zero_add]
      rw [put_inside _ _ (by simp; omega),
        List.getElem?_append_left bound]
      simp [bound]
  · rw [overlay, put_inside _ _ (by simp)]
    simp

end Written

/-- `strlen` returns `n`. -/
def Bytes.Strlen (memory : Bytes) (n : ℕ) : Prop :=
  memory n = 0 ∧ ∀ position < n, memory position ≠ 0

theorem Bytes.HoldsText.strlen {memory : Bytes} {text : List UInt8}
    (holds : memory.HoldsText text) (noZero : 0 ∉ text) :
    memory.Strlen text.length := by
  refine ⟨holds.ends, ?_⟩
  intro position inside zero
  apply noZero
  rw [← holds.content, ← zero]
  simp only [Bytes.read, List.mem_map, List.mem_range, Nat.zero_add]
  exact ⟨position, inside, rfl⟩

/-! ## Printers -/

/-- A function with the arguments `dst` and `len`: what it returns and what is
written after it. -/
abbrev Printer := ℤ → ℤ → Written → ℤ × Written

/-- `snprintf` with the text that its format and arguments make.  A text whose
length is no `int` is an error. -/
def snprintf (text : List UInt8) : Printer := fun dst len written =>
  (if text.length ≤ intMax then text.length else -1,
    if intToSize len = 0 then written
    else written.put dst (text.take (intToSize len - 1) ++ [0]))

/-- One piece behind the other, from `offset` on. -/
def printFrom (dst len : ℤ) :
    List Printer → ℤ → Written → ℤ × Written
  | [], offset, written => (offset, written)
  | print :: pieces, offset, written =>
      let (size, written) := print (dst + offset) (len - offset) written
      if size ≤ 0 ∨ len - offset ≤ size then (-1, written)
      else printFrom dst len pieces (offset + size) written

def printPieces (pieces : List Printer) : Printer := fun dst len written =>
  printFrom dst len pieces 0 written

theorem printFrom_cons (dst len : ℤ) (print : Printer)
    (pieces : List Printer) (offset : ℤ) (written : Written) :
    printFrom dst len (print :: pieces) offset written =
      if (print (dst + offset) (len - offset) written).1 ≤ 0 ∨
          len - offset ≤ (print (dst + offset) (len - offset) written).1
      then (-1, (print (dst + offset) (len - offset) written).2)
      else printFrom dst len pieces
        (offset + (print (dst + offset) (len - offset) written).1)
        (print (dst + offset) (len - offset) written).2 := rfl

/-! ## The size -/

/-- Where more than `size` bytes are left, `size` is returned; where not, a
value that the caller takes for a failure. -/
structure Sized (print : Printer) (size : ℕ) : Prop where
  positive : 0 < size
  fits : ∀ (dst len : ℤ) (written : Written), len ≤ intMax → size < len →
    (print dst len written).1 = size
  cut : ∀ (dst len : ℤ) (written : Written), len ≤ intMax → len ≤ size →
    (print dst len written).1 ≤ 0 ∨ len ≤ (print dst len written).1

theorem snprintf_sized {text : List UInt8} (nonempty : text ≠ []) :
    Sized (snprintf text) text.length := by
  refine ⟨List.length_pos_iff.mpr nonempty, ?_, ?_⟩
  · intro dst len written isInt fits
    have short : text.length ≤ intMax := by omega
    rw [snprintf, if_pos short]
  · intro dst len written isInt cut
    by_cases short : text.length ≤ intMax
    · rw [snprintf, if_pos short]
      exact .inr cut
    · rw [snprintf, if_neg short]
      exact .inl (by simp)

theorem printFrom_fits {dst len offset : ℤ} {pieces : List Printer}
    {sizes : List ℕ} {written : Written}
    (sized : List.Forall₂ Sized pieces sizes) (isInt : len ≤ intMax)
    (started : 0 ≤ offset) (fits : offset + sizes.sum < len) :
    (printFrom dst len pieces offset written).1 = offset + sizes.sum := by
  induction sized generalizing offset written with
  | nil => simp [printFrom]
  | cons first _ induction =>
      rw [List.sum_cons, Nat.cast_add] at fits ⊢
      have returned := first.fits (dst + offset) (len - offset) written
        (by omega) (by omega)
      have positive := first.positive
      rw [printFrom_cons, if_neg (by rw [returned]; omega), returned,
        induction (by omega) (by omega)]
      omega

theorem printFrom_cut {dst len offset : ℤ} {pieces : List Printer}
    {sizes : List ℕ} {written : Written}
    (sized : List.Forall₂ Sized pieces sizes) (isInt : len ≤ intMax)
    (started : 0 ≤ offset) (some : pieces ≠ [])
    (cut : len ≤ offset + sizes.sum) :
    (printFrom dst len pieces offset written).1 = -1 := by
  induction sized generalizing offset written with
  | nil => exact absurd rfl some
  | @cons print size pieces sizes first rest induction =>
      rw [List.sum_cons, Nat.cast_add] at cut
      rcases lt_or_ge (size : ℤ) (len - offset) with enough | full
      · have returned := first.fits (dst + offset) (len - offset) written
          (by omega) enough
        have positive := first.positive
        have more : pieces ≠ [] := by
          rintro rfl
          cases rest
          simp only [List.sum_nil] at cut
          omega
        rw [printFrom_cons, if_neg (by rw [returned]; omega), returned]
        exact induction (by omega) more (by omega)
      · rw [printFrom_cons, if_pos]
        exact first.cut _ _ _ (by omega) full

/-- A text that does not fit is reported with -1. -/
def Refuses (print : Printer) (size : ℕ) : Prop :=
  ∀ (dst len : ℤ) (written : Written), len ≤ intMax → len ≤ size →
    (print dst len written).1 = -1

theorem printPieces_refuses {pieces : List Printer} {sizes : List ℕ}
    (sized : List.Forall₂ Sized pieces sizes) (some : pieces ≠ []) :
    Refuses (printPieces pieces) sizes.sum := by
  intro dst len written isInt cut
  exact printFrom_cut sized isInt le_rfl some (by omega)

/-- A piece that never prints anything. -/
theorem printFrom_refused {dst len offset : ℤ} {pieces : List Printer}
    {written : Written} {print : Printer} (member : print ∈ pieces)
    (fails : ∀ dst len written, (print dst len written).1 ≤ 0) :
    (printFrom dst len pieces offset written).1 = -1 := by
  induction pieces generalizing offset written with
  | nil => cases member
  | cons first pieces induction =>
      rw [printFrom_cons]
      split_ifs with stopped
      · rfl
      · rcases List.mem_cons.mp member with rfl | later
        · exact absurd (.inl (fails _ _ _)) stopped
        · exact induction later

theorem printPieces_sized {pieces : List Printer} {sizes : List ℕ}
    (sized : List.Forall₂ Sized pieces sizes) (some : pieces ≠ []) :
    Sized (printPieces pieces) sizes.sum := by
  refine ⟨?_, ?_, ?_⟩
  · cases sized with
    | nil => exact absurd rfl some
    | cons first _ =>
        rw [List.sum_cons]
        exact Nat.add_pos_left first.positive _
  · intro dst len written isInt fits
    rw [printPieces, printFrom_fits sized isInt le_rfl (by omega), zero_add]
  · intro dst len written isInt cut
    rw [printPieces_refuses sized some dst len written isInt cut]
    exact .inl (by decide)

/-! ## The room -/

/-- Nothing is written outside `len` bytes. -/
def Bounded (print : Printer) : Prop :=
  ∀ (dst len : ℤ) (written : Written), 0 ≤ len → len ≤ intMax →
    ∀ address, address < dst ∨ dst + len ≤ address →
      (print dst len written).2 address = written address

theorem snprintf_bounded (text : List UInt8) : Bounded (snprintf text) := by
  intro dst len written started isInt address outside
  obtain ⟨room, rfl⟩ := Int.eq_ofNat_of_zero_le started
  have size : intToSize (room : ℤ) = room :=
    intToSize_natCast (by omega)
  simp only [snprintf, size]
  split_ifs with empty
  · rfl
  · apply Written.put_outside
    have cut : (text.take (room - 1)).length ≤ room - 1 :=
      List.length_take_le _ _
    rw [List.length_append, List.length_singleton]
    omega

theorem printFrom_bounded {dst len offset : ℤ} {pieces : List Printer}
    {written : Written} (bounded : ∀ print ∈ pieces, Bounded print)
    (isInt : len ≤ intMax) (started : 0 ≤ offset) (within : offset ≤ len)
    {address : ℤ} (outside : address < dst ∨ dst + len ≤ address) :
    (printFrom dst len pieces offset written).2 address =
      written address := by
  induction pieces generalizing offset written with
  | nil => rfl
  | cons print pieces induction =>
      rw [List.forall_mem_cons] at bounded
      have first := bounded.1 (dst + offset) (len - offset) written
        (by omega) (by omega) address (by omega)
      rw [printFrom_cons]
      split_ifs with stopped
      · exact first
      · rw [induction bounded.2 (by omega) (by omega), first]

theorem printPieces_bounded {pieces : List Printer}
    (bounded : ∀ print ∈ pieces, Bounded print) :
    Bounded (printPieces pieces) := by
  intro dst len written started isInt address outside
  exact printFrom_bounded bounded isInt le_rfl started outside

/-! ## The text -/

/-- Where the text fits with its zero, it is left behind. -/
structure Prints (print : Printer) (text : List UInt8) : Prop where
  sized : Sized print text.length
  bounded : Bounded print
  writes : ∀ (dst len : ℤ) (written : Written), len ≤ intMax →
    text.length < len →
      (print dst len written).2 = written.put dst (text ++ [0])

theorem snprintf_prints {text : List UInt8} (nonempty : text ≠ []) :
    Prints (snprintf text) text := by
  refine ⟨snprintf_sized nonempty, snprintf_bounded text, ?_⟩
  intro dst len written isInt fits
  obtain ⟨room, rfl⟩ := Int.eq_ofNat_of_zero_le (by omega : 0 ≤ len)
  have size : intToSize (room : ℤ) = room :=
    intToSize_natCast (by omega)
  simp only [snprintf, size]
  rw [if_neg (by omega), List.take_of_length_le (by omega)]

/-- Each piece is put over the zero of the one before it. -/
theorem printFrom_writes {dst len : ℤ} {pieces : List Printer}
    {texts : List (List UInt8)} {written : Written}
    {sofar replaced : List UInt8}
    (prints : List.Forall₂ Prints pieces texts) (isInt : len ≤ intMax)
    (some : pieces ≠ []) (short : replaced.length ≤ 1)
    (fits : (sofar ++ texts.flatten).length < len) :
    (printFrom dst len pieces sofar.length
        (written.put dst (sofar ++ replaced))).2 =
      written.put dst (sofar ++ texts.flatten ++ [0]) := by
  induction prints generalizing sofar replaced with
  | nil => exact absurd rfl some
  | @cons print text pieces texts first rest induction =>
      rw [List.flatten_cons] at fits ⊢
      simp only [List.length_append, Nat.cast_add] at fits
      have returned := first.sized.fits (dst + sofar.length)
        (len - sofar.length) (written.put dst (sofar ++ replaced))
        (by omega) (by omega)
      have positive := first.sized.positive
      rw [printFrom_cons, if_neg (by rw [returned]; omega), returned,
        first.writes _ _ _ (by omega) (by omega),
        Written.put_put _ _ _ (by simp; omega), ← List.append_assoc,
        ← Nat.cast_add, ← List.length_append]
      cases pieces with
      | nil =>
          cases rest
          simp [printFrom]
      | cons next pieces =>
          rw [induction (List.cons_ne_nil _ _) le_rfl
            (by simp only [List.length_append, Nat.cast_add]; omega)]
          simp

/-- The sizes of pieces that leave texts behind. -/
theorem printed_sized {pieces : List Printer} {texts : List (List UInt8)}
    (prints : List.Forall₂ Prints pieces texts) :
    List.Forall₂ Sized pieces (texts.map List.length) := by
  rw [List.forall₂_map_right_iff]
  exact prints.imp fun _ _ first => first.sized

theorem printPieces_prints {pieces : List Printer}
    {texts : List (List UInt8)} (prints : List.Forall₂ Prints pieces texts)
    (some : pieces ≠ []) : Prints (printPieces pieces) texts.flatten := by
  have bounded : ∀ print ∈ pieces, Bounded print := by
    clear some
    induction prints with
    | nil => simp
    | cons first _ induction =>
        rw [List.forall_mem_cons]
        exact ⟨first.bounded, induction⟩
  refine ⟨?_, printPieces_bounded bounded, ?_⟩
  · rw [List.length_flatten]
    exact printPieces_sized (printed_sized prints) some
  · intro dst len written isInt fits
    have whole := @printFrom_writes dst len pieces texts written [] []
      prints isInt some (by simp) fits
    simpa [printPieces] using whole

/-- Pieces that come in groups. -/
theorem forall₂_flatMap {Item Left Right : Type*}
    {Related : Left → Right → Prop} {left : Item → List Left}
    {right : Item → List Right} {items : List Item}
    (related : ∀ item ∈ items,
      List.Forall₂ Related (left item) (right item)) :
    List.Forall₂ Related (items.flatMap left) (items.flatMap right) := by
  induction items with
  | nil => exact .nil
  | cons item items induction =>
      rw [List.forall_mem_cons] at related
      rw [List.flatMap_cons, List.flatMap_cons]
      exact List.rel_append related.1 (induction related.2)

/-! ## What a caller sees -/

/-- As many bytes as are returned have been written, and they are the string
in the buffer. -/
def WritesAll (print : Printer) (dst len : ℤ) : Prop :=
  0 ≤ (print dst len .nothing).1 →
    (∀ position < (print dst len .nothing).1.toNat,
      (print dst len .nothing).2 (dst + position) ≠ none) ∧
    ∀ memory : ℤ → UInt8, ((print dst len .nothing).2.overlay memory dst).Strlen
      (print dst len .nothing).1.toNat

theorem Prints.writesAll {print : Printer} {text : List UInt8}
    (prints : Prints print text) (refuses : Refuses print text.length)
    (noZero : 0 ∉ text) {dst len : ℤ} (isInt : len ≤ intMax) :
    WritesAll print dst len := by
  intro succeeds
  rcases lt_or_ge (text.length : ℤ) len with fits | cut
  · rw [prints.sized.fits dst len .nothing isInt fits, Int.toNat_natCast,
      prints.writes dst len .nothing isInt fits]
    constructor
    · intro position inside
      rw [Written.put_inside _ _ (by simp; omega),
        List.getElem?_append_left inside, List.getElem?_eq_getElem inside]
      exact Option.some_ne_none _
    · intro memory
      exact (Written.put_over_holdsText _ memory dst text).strlen noZero
  · rw [refuses dst len .nothing isInt cut] at succeeds
    exact absurd succeeds (by decide)

/-- All of the text and its length, or -1, and nothing outside the buffer. -/
structure AllOrNothing (print : Printer) (text : List UInt8)
    (dst len : ℤ) : Prop where
  inside : ∀ address, address < dst ∨ dst + len ≤ address →
    (print dst len .nothing).2 address = none
  complete : text.length < len →
    (print dst len .nothing).1 = text.length ∧
    ∀ memory : ℤ → UInt8,
      ((print dst len .nothing).2.overlay memory dst).HoldsText text ∧
      ((print dst len .nothing).2.overlay memory dst).Strlen text.length
  refused : len ≤ text.length → (print dst len .nothing).1 = -1

theorem Prints.allOrNothing {print : Printer} {text : List UInt8}
    (prints : Prints print text) (refuses : Refuses print text.length)
    (noZero : 0 ∉ text) {dst len : ℤ} (started : 0 ≤ len)
    (isInt : len ≤ intMax) : AllOrNothing print text dst len := by
  refine ⟨?_, ?_, ?_⟩
  · intro address outside
    exact prints.bounded dst len .nothing started isInt address outside
  · intro fits
    refine ⟨prints.sized.fits dst len .nothing isInt fits, ?_⟩
    intro memory
    have holds := Written.nothing.put_over_holdsText memory dst text
    rw [prints.writes dst len .nothing isInt fits]
    exact ⟨holds, holds.strlen noZero⟩
  · exact refuses dst len .nothing isInt

/-! ## The front of a text -/

theorem printFrom_below {dst len offset : ℤ} {pieces : List Printer}
    {written : Written} (bounded : ∀ print ∈ pieces, Bounded print)
    (isInt : len ≤ intMax) (started : 0 ≤ offset) (within : offset ≤ len)
    {address : ℤ} (below : address < dst + offset) :
    (printFrom dst len pieces offset written).2 address =
      written address := by
  induction pieces generalizing offset written with
  | nil => rfl
  | cons print pieces induction =>
      rw [List.forall_mem_cons] at bounded
      have first := bounded.1 (dst + offset) (len - offset) written
        (by omega) (by omega) address (.inl below)
      rw [printFrom_cons]
      split_ifs with stopped
      · exact first
      · rw [induction bounded.2 (by omega) (by omega) (by omega), first]

theorem printed_bounded {pieces : List Printer} {texts : List (List UInt8)}
    (prints : List.Forall₂ Prints pieces texts) :
    ∀ print ∈ pieces, Bounded print := by
  induction prints with
  | nil => simp
  | cons first _ induction =>
      rw [List.forall_mem_cons]
      exact ⟨first.bounded, induction⟩

/-- Where the call succeeds, the text in the buffer begins like this. -/
def Begins (print : Printer) (front : List UInt8) : Prop :=
  ∀ (dst len : ℤ) (written : Written), len ≤ intMax →
    0 ≤ (print dst len written).1 → front.length ≤ len ∧
      ∀ position < front.length,
        (print dst len written).2 (dst + position) = front[position]?

/-- What comes behind the first pieces does not change their text. -/
theorem printFrom_begins {dst len offset : ℤ} {front back : List Printer}
    {texts : List (List UInt8)} {written : Written}
    (prints : List.Forall₂ Prints front texts)
    (bounded : ∀ print ∈ back, Bounded print) (isInt : len ≤ intMax)
    (started : 0 ≤ offset) (within : offset ≤ len)
    (succeeds :
      0 ≤ (printFrom dst len (front ++ back) offset written).1) :
    offset + texts.flatten.length ≤ len ∧
      ∀ position < texts.flatten.length,
        (printFrom dst len (front ++ back) offset written).2
            (dst + offset + position) = texts.flatten[position]? := by
  induction prints generalizing offset written with
  | nil => simpa using within
  | @cons print text front texts first rest induction =>
      have frontBounded : ∀ print ∈ front ++ back, Bounded print := by
        intro print member
        rcases List.mem_append.mp member with early | late
        · exact printed_bounded rest print early
        · exact bounded print late
      rw [List.cons_append, printFrom_cons] at succeeds ⊢
      split_ifs at succeeds ⊢ with stopped
      · exact absurd succeeds (by simp)
      · have enough : (text.length : ℤ) < len - offset := by
          by_contra cut
          exact stopped (first.sized.cut (dst + offset) (len - offset)
            written (by omega) (not_lt.mp cut))
        have returned := first.sized.fits (dst + offset) (len - offset)
          written (by omega) enough
        have wrote := first.writes (dst + offset) (len - offset) written
          (by omega) enough
        rw [returned, wrote] at succeeds ⊢
        obtain ⟨room, later⟩ := induction (by omega) (by omega) succeeds
        rw [List.flatten_cons, List.length_append]
        refine ⟨by omega, ?_⟩
        intro position inside
        rcases lt_or_ge position text.length with early | late
        · rw [printFrom_below frontBounded isInt (by omega) (by omega)
              (by omega), Written.put_inside _ _ (by simp; omega),
            List.getElem?_append_left early, List.getElem?_append_left early]
        · obtain ⟨more, rfl⟩ := Nat.exists_eq_add_of_le late
          have place : dst + offset + ((text.length + more : ℕ) : ℤ) =
              dst + (offset + text.length) + more := by omega
          rw [List.getElem?_append_right late, Nat.add_sub_cancel_left,
            place]
          exact later more (by omega)

theorem printPieces_begins {front back : List Printer}
    {texts : List (List UInt8)} (prints : List.Forall₂ Prints front texts)
    (bounded : ∀ print ∈ back, Bounded print) (some : front ≠ []) :
    Begins (printPieces (front ++ back)) texts.flatten := by
  intro dst len written isInt succeeds
  have started : 0 ≤ len := by
    by_contra negative
    cases prints with
    | nil => exact some rfl
    | cons first _ =>
        rw [printPieces, List.cons_append, printFrom_cons, if_pos] at succeeds
        · exact absurd succeeds (by simp)
        · exact first.sized.cut _ _ _ (by omega) (by omega)
  have begins := printFrom_begins prints bounded isInt le_rfl started
    succeeds
  rwa [zero_add, add_zero] at begins

/-- The string in the buffer. -/
theorem Begins.cString {print : Printer} {front : List UInt8}
    (begins : Begins print front) (noZero : 0 ∉ front) {dst len : ℤ}
    (isInt : len ≤ intMax)
    (succeeds : 0 ≤ (print dst len .nothing).1) (memory : ℤ → UInt8) :
    ∃ behind, ((print dst len .nothing).2.overlay memory dst).cString
      len.toNat = front ++ behind := by
  obtain ⟨room, bytes⟩ := begins dst len .nothing isInt succeeds
  obtain ⟨more, length⟩ := Nat.exists_eq_add_of_le
    (by omega : front.length ≤ len.toNat)
  have starts : ((print dst len .nothing).2.overlay memory dst).startingWith
      front = (print dst len .nothing).2.overlay memory dst := by
    funext position
    by_cases inside : position < front.length
    · simp [Bytes.startingWith, Written.overlay, bytes position inside,
        inside]
    · simp [Bytes.startingWith, Nat.not_lt.mp inside]
  have whole := ((print dst len .nothing).2.overlay memory
    dst).read_startingWith_behind front more
  rw [starts, ← length] at whole
  rw [Bytes.cString, whole, List.takeWhile_append_of_pos]
  · exact ⟨_, rfl⟩
  · intro byte member
    simpa using ne_of_mem_of_not_mem member noZero

end Foundation
