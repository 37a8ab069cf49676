import EmbeddedMiddle.Foundation.JsonValues
import EmbeddedMiddle.GeojsonBounds

/-!
# The printed objects as JSON

Which printed objects are read as their elements again.  Keys and strings are
printed as they are, and `%lf` prints no number for an infinity.
-/

namespace EmbeddedMiddle

open Foundation

/-! ## What the elements say -/

namespace EmJsonval

def json : EmJsonval → Option Json
  | integer value => some (.number value)
  | floating value => value.printed.map .number
  | string value => some (.string value.text)
  | jobj => none
  | unknown => none

/-- What is printed can be read as this value only. -/
def Readable : EmJsonval → Prop
  | integer _ => True
  | floating value => value.Finite
  | string value => Json.Plain value.text
  | jobj => False
  | unknown => False

end EmJsonval

namespace EmJelem

def IsMember (elem : EmJelem) (member : List UInt8 × Json) : Prop :=
  member.1 = elem.key.text ∧ elem.val.json = some member.2

def Readable (elem : EmJelem) : Prop :=
  Json.Plain elem.key.text ∧ elem.val.Readable

theorem exists_member {elem : EmJelem} (readable : elem.Readable) :
    ∃ member, elem.IsMember member := by
  obtain ⟨key, val⟩ := elem
  cases val with
  | integer value => exact ⟨(key.text, _), rfl, rfl⟩
  | floating value =>
      obtain ⟨printed, shown⟩ := Option.ne_none_iff_exists'.mp readable.2
      exact ⟨(key.text, .number printed), rfl, by
        rw [EmJsonval.json, shown, Option.map_some]⟩
  | string value => exact ⟨(key.text, _), rfl, rfl⟩
  | jobj => exact readable.2.elim
  | unknown => exact readable.2.elim

end EmJelem

theorem members_exist {elems : List EmJelem}
    (readable : ∀ elem ∈ elems, elem.Readable) :
    ∃ members, List.Forall₂ EmJelem.IsMember elems members := by
  induction elems with
  | nil => exact ⟨[], .nil⟩
  | cons elem elems induction =>
      rw [List.forall_mem_cons] at readable
      obtain ⟨member, first⟩ := EmJelem.exists_member readable.1
      obtain ⟨members, others⟩ := induction readable.2
      exact ⟨member :: members, .cons first others⟩

/-- The text is a JSON object with the elements as members, in order. -/
def ReadsAs (elems : List EmJelem) (text : List UInt8) : Prop :=
  ∃ members, Json.parse text = some (.object members) ∧
    List.Forall₂ EmJelem.IsMember elems members

/-! ## Reading one element -/

theorem value_reads_iff {val : EmJsonval} {json : Json}
    (meant : val.json = some json) {behind rest : List UInt8}
    (stops : Json.Stops behind) (depth : ℕ) :
    Json.value (depth + 1) (32 :: (val.text ++ behind)) = some (json, rest) ↔
      val.Readable ∧ rest = behind := by
  cases val with
  | integer value =>
      cases meant
      rw [EmJsonval.text, Json.value_int value stops depth]
      simp [EmJsonval.Readable, eq_comm]
  | floating value =>
      cases value with
      | finite negative mantissa exponent _ _ =>
          cases meant
          rw [EmJsonval.text, Double.text,
            Json.value_fixed negative (millionths mantissa exponent) stops
              depth]
          simp [EmJsonval.Readable, Double.Finite, Double.printed, eq_comm]
      | infinite negative => cases meant
      | nan negative => cases meant
  | string value =>
      cases meant
      have shape : EmJsonval.text (.string value) ++ behind =
          34 :: (value.text ++ 34 :: behind) := by
        simp [EmJsonval.text, ascii]
      rw [shape, Json.value_string, EmJsonval.Readable, ← Json.chars_eq_iff]
      simp
  | jobj => cases meant
  | unknown => cases meant

theorem member_reads_iff {elem : EmJelem} {member : List UInt8 × Json}
    (meant : elem.IsMember member) {behind rest : List UInt8}
    (stops : Json.Stops behind) (depth : ℕ) :
    Json.member (Json.value (depth + 1)) (32 :: (elem.text ++ behind)) =
        some (member, rest) ↔ elem.Readable ∧ rest = behind := by
  obtain ⟨key, found⟩ := member
  obtain ⟨rfl, json⟩ := meant
  have shape : 32 :: (elem.text ++ behind) =
      32 :: 34 :: (elem.key.text ++
        34 :: 58 :: 32 :: (elem.val.text ++ behind)) := by
    simp [EmJelem.text, EmJelem.keyText, ascii]
  rw [Json.member_eq_some_iff shape, value_reads_iff json stops depth,
    EmJelem.Readable, and_assoc]

/-! ## Reading all elements -/

/-- What is behind the brace that opens an object. -/
def closed : List EmJelem → List UInt8
  | [] => []
  | [elem] => 32 :: (elem.text ++ [32, 125])
  | elem :: next :: elems => 32 :: (elem.text ++ 44 :: closed (next :: elems))

theorem EmJobj.text_eq {obj : EmJobj} (some : obj.elems ≠ []) :
    obj.text = 123 :: closed obj.elems := by
  have rest : ∀ elems : List EmJelem, elems ≠ [] →
      32 :: ((ascii ", ").intercalate (elems.map EmJelem.text) ++
        ascii " \x7d") = closed elems := by
    intro elems
    induction elems with
    | nil => exact fun empty => absurd rfl empty
    | cons elem elems induction =>
        intro _
        cases elems with
        | nil => simp [closed, ascii]
        | cons next elems =>
            rw [closed, ← induction (List.cons_ne_nil _ _)]
            simp [List.intercalate_cons_cons, ascii]
  rw [← rest obj.elems some]
  simp [EmJobj.text, ascii]

theorem stops_comma (text : List UInt8) : Json.Stops (44 :: text) := by
  intro byte inside
  cases inside
  decide

theorem stops_blank (text : List UInt8) : Json.Stops (32 :: text) := by
  intro byte inside
  cases inside
  decide

theorem items_read_iff {elems : List EmJelem}
    {members : List (List UInt8 × Json)}
    (meant : List.Forall₂ EmJelem.IsMember elems members)
    (some : elems ≠ []) {fuel : ℕ} (enough : elems.length ≤ fuel)
    (depth : ℕ) :
    (∃ rest, Json.items (Json.member (Json.value (depth + 1))) 125 fuel
        (closed elems) = .some (members, rest) ∧ Json.skip rest = []) ↔
      ∀ elem ∈ elems, elem.Readable := by
  induction meant generalizing fuel with
  | nil => exact absurd rfl some
  | @cons elem member elems members first others induction =>
      obtain ⟨fuel, rfl⟩ := Nat.exists_eq_add_one_of_ne_zero
        (Nat.ne_zero_of_lt enough)
      rw [List.forall_mem_cons]
      simp only [Json.items_cons_iff]
      cases others with
      | nil =>
          have noComma : Json.token 44 [32, 125] = none := rfl
          have brace : Json.token 125 [32, 125] = Option.some [] := rfl
          simp only [closed, member_reads_iff first (stops_blank _)]
          constructor
          · rintro ⟨rest, ⟨behind, ⟨readable, _⟩, _⟩, _⟩
            exact ⟨readable, by simp⟩
          · rintro ⟨readable, _⟩
            exact ⟨[], ⟨_, ⟨readable, rfl⟩,
              .inr ⟨noComma, brace, trivial⟩⟩, rfl⟩
      | @cons next _ elems _ _ _ =>
          have comma : Json.token 44 (44 :: closed (next :: elems)) =
              Option.some (closed (next :: elems)) := by
            rw [Json.token_cons (by decide), if_pos rfl]
          have later := induction (List.cons_ne_nil _ _)
            (Nat.le_of_succ_le_succ enough)
          simp only [closed, member_reads_iff first (stops_comma _)]
          rw [← later]
          constructor
          · rintro ⟨rest, ⟨behind, ⟨readable, rfl⟩, ⟨text, found, more⟩ |
              ⟨absent, _⟩⟩, ended⟩
            · rw [comma] at found
              cases found
              exact ⟨readable, rest, more, ended⟩
            · rw [comma] at absent
              cases absent
          · rintro ⟨readable, rest, more, ended⟩
            exact ⟨rest, ⟨_, ⟨readable, rfl⟩, .inl ⟨_, comma, more⟩⟩, ended⟩

theorem closed_starts {elems : List EmJelem} (some : elems ≠ []) :
    ∃ text, closed elems = 32 :: 34 :: text := by
  match elems, some with
  | [elem], _ =>
      simp [closed, EmJelem.text, EmJelem.keyText, ascii]
  | elem :: next :: elems, _ =>
      simp [closed, EmJelem.text, EmJelem.keyText, ascii]

theorem length_le_closed (elems : List EmJelem) :
    elems.length ≤ (closed elems).length := by
  match elems with
  | [] => simp
  | [elem] => simp [closed]
  | elem :: next :: elems =>
      have later := length_le_closed (next :: elems)
      simp only [closed, List.length_cons, List.length_append] at later ⊢
      omega

/-- Everything must be readable for the object to be read as its elements. -/
theorem text_reads_iff {obj : EmJobj} (some : obj.elems ≠ []) :
    ReadsAs obj.elems obj.text ↔ ∀ elem ∈ obj.elems, elem.Readable := by
  have inhabited : Json.token 125 (closed obj.elems) = none := by
    obtain ⟨text, starts⟩ := closed_starts some
    rw [starts, Json.token_space, Json.token_cons (by decide)]
    rfl
  have read : ∀ members,
      List.Forall₂ EmJelem.IsMember obj.elems members →
        (Json.parse obj.text = .some (.object members) ↔
          ∀ elem ∈ obj.elems, elem.Readable) := by
    intro members meant
    rw [EmJobj.text_eq some, Json.parse_object_iff inhabited]
    exact items_read_iff meant some (length_le_closed _) _
  constructor
  · rintro ⟨members, parsed, meant⟩
    exact (read members meant).mp parsed
  · intro readable
    obtain ⟨members, meant⟩ := members_exist readable
    exact ⟨members, (read members meant).mpr readable, meant⟩

/-! ## The printed object -/

namespace EmJobj

variable {obj : EmJobj} {dst len : ℤ}

theorem emJsonSnprintObj_eq_printed (supported : obj.Supported)
    (isInt : len ≤ intMax) (fits : obj.printed.length < len) :
    emJsonSnprintObj obj dst len .nothing =
      ((obj.printed.length : ℤ),
        Written.nothing.put dst (obj.printed ++ [0])) := by
  have prints := emJsonSnprintObj_prints supported
  exact Prod.ext (prints.sized.fits dst len .nothing isInt fits)
    (prints.writes dst len .nothing isInt fits)

/-- The string in the buffer after the call. -/
def output (obj : EmJobj) (dst len : ℤ) (memory : ℤ → UInt8) : List UInt8 :=
  ((emJsonSnprintObj obj dst len .nothing).2.overlay memory dst).cString
    len.toNat

theorem output_eq (supported : obj.Supported) (isInt : len ≤ intMax)
    (fits : obj.printed.length < len) (memory : ℤ → UInt8) :
    obj.output dst len memory = obj.printed := by
  rw [output, emJsonSnprintObj_eq_printed supported isInt fits]
  exact (Written.nothing.put_over_holdsText memory dst obj.printed).cString_eq
    obj.printed_noZero (by omega)

end EmJobj

/-- An element of a type that is printed, without anything to escape. -/
structure EmJelem.Unescaped (elem : EmJelem) : Prop where
  supported : elem.val.supported = true
  key : Json.Plain elem.key.text
  string : ∀ text, elem.val = .string text → Json.Plain text.text

/-- Every number that is printed is one. -/
def EmJelem.Numeric (elem : EmJelem) : Prop :=
  ∀ value, elem.val = .floating value → value.Finite

theorem EmJelem.Unescaped.readable_iff {elem : EmJelem}
    (unescaped : elem.Unescaped) : elem.Readable ↔ elem.Numeric := by
  obtain ⟨key, val⟩ := elem
  obtain ⟨supported, keyPlain, string⟩ := unescaped
  rw [EmJelem.Readable, EmJelem.Numeric]
  cases val with
  | integer value => simp [keyPlain, EmJsonval.Readable]
  | floating value => simp [keyPlain, EmJsonval.Readable]
  | string value => simp [keyPlain, EmJsonval.Readable, string value rfl]
  | jobj => cases supported
  | unknown => cases supported

section Printing

variable {obj : EmJobj} {len : ℤ}

/-- Without elements the brace is put over the opening one. -/
theorem emJsonSnprintObj_of_empty (empty : obj.elems = [])
    (isInt : len ≤ intMax) (enough : obj.text.length < len) (dst : ℤ) :
    (emJsonSnprintObj obj dst len .nothing).2 dst = some 32 ∧
      Written.nothing.put dst (obj.text ++ [0]) dst = some 123 := by
  have supported : obj.Supported := by simp [EmJobj.Supported, empty]
  have printed := obj.printed_of_empty empty
  have text : obj.text = ascii "\x7b " ++ ascii " \x7d" := by
    simp [EmJobj.text, empty]
  have short : obj.printed.length < len := by
    rw [text, List.length_append, Nat.cast_add] at enough
    rw [printed]
    omega
  rw [EmJobj.emJsonSnprintObj_eq_printed supported isInt short, printed,
    text]
  simp [Written.put, ascii]

/-- The printed text is the object exactly if there is an element whose
separator the brace can replace and all floating values are numbers. -/
theorem emJsonSnprintObj_text_iff
    (unescaped : ∀ elem ∈ obj.elems, elem.Unescaped)
    (isInt : toInt32 len = len) (enough : obj.text.length < len) (dst : ℤ) :
    (emJsonSnprintObj obj dst len .nothing =
        ((obj.text.length : ℤ), Written.nothing.put dst (obj.text ++ [0])) ∧
      ReadsAs obj.elems obj.text) ↔
      obj.elems ≠ [] ∧ ∀ elem ∈ obj.elems, elem.Numeric := by
  have upper := le_intMax_of_toInt32 isInt
  have supported : obj.Supported := by
    intro elem member
    exact (unescaped elem member).supported
  have readable : (∀ elem ∈ obj.elems, elem.Readable) ↔
      ∀ elem ∈ obj.elems, elem.Numeric := by
    apply forall₂_congr
    intro elem member
    exact (unescaped elem member).readable_iff
  rcases eq_or_ne obj.elems [] with empty | inhabited
  · constructor
    · rintro ⟨whole, _⟩
      obtain ⟨written, wanted⟩ :=
        emJsonSnprintObj_of_empty empty upper enough dst
      rw [whole] at written
      exact absurd (wanted.symm.trans written) (by decide)
    · rintro ⟨inhabited, _⟩
      exact absurd empty inhabited
  · rw [text_reads_iff inhabited, readable]
    have fits := enough
    rw [← obj.printed_eq_text inhabited] at fits ⊢
    simp only [EmJobj.emJsonSnprintObj_eq_printed supported upper fits,
      inhabited, ne_eq, not_false_eq_true, true_and]

/-- The elements of `geojson_test.c`. -/
def jsonobjObj : EmJobj :=
  ⟨[⟨.ofList (ascii "aa") (by decide), .integer 10⟩,
    ⟨.ofList (ascii "bb") (by decide),
      .floating (.finite false 6924284427082138 (-49) (by decide)
        (by decide))⟩,
    ⟨.ofList (ascii "cc") (by decide),
      .string (.ofList (ascii "xyz") (by decide))⟩]⟩

example : jsonobjObj.text =
    ascii "\x7b \"aa\": 10, \"bb\": 12.300000, \"cc\": \"xyz\" \x7d" := by
  decide +kernel

theorem jsonobjObj_text :
    emJsonSnprintObj jsonobjObj 0 128 .nothing =
        ((jsonobjObj.text.length : ℤ),
          Written.nothing.put 0 (jsonobjObj.text ++ [0])) ∧
      ReadsAs jsonobjObj.elems jsonobjObj.text := by
  apply (emJsonSnprintObj_text_iff _ (by decide) (by decide +kernel) 0).mpr
  · refine ⟨List.cons_ne_nil _ _, ?_⟩
    simp [jsonobjObj, EmJelem.Numeric, Double.Finite, Double.printed]
  · intro elem member
    simp only [jsonobjObj, List.mem_cons, List.not_mem_nil,
      or_false] at member
    rcases member with rfl | rfl | rfl
    · exact ⟨rfl, by decide +kernel, nofun⟩
    · exact ⟨rfl, by decide +kernel, nofun⟩
    · refine ⟨rfl, by decide +kernel, ?_⟩
      intro text same
      cases same
      decide +kernel

/-- Without elements ` }` is printed. -/
theorem empty_object_text :
    ¬ ∀ (obj : EmJobj) (dst len : ℤ),
      (∀ elem ∈ obj.elems, elem.Unescaped) → toInt32 len = len →
      obj.text.length < len →
      emJsonSnprintObj obj dst len .nothing =
          ((obj.text.length : ℤ),
            Written.nothing.put dst (obj.text ++ [0])) ∧
        ReadsAs obj.elems obj.text := by
  intro printed
  have first := congrArg (fun result => result.2 0)
    (printed ⟨[]⟩ 0 128 (by simp) (by decide) (by decide)).1
  exact absurd first (by decide +kernel)

/-! ## Round trips -/

/-- The types of elements whose texts are exact. -/
def EmJsonval.Exact : EmJsonval → Prop
  | .integer _ => True
  | .string _ => True
  | .floating _ => False
  | .jobj => False
  | .unknown => False

theorem EmJsonval.Exact.supported {val : EmJsonval} (exact : val.Exact) :
    val.supported = true := by
  cases val with
  | integer value => rfl
  | string value => rfl
  | floating value => exact exact.elim
  | jobj => exact exact.elim
  | unknown => exact exact.elim

/-- No quotation mark, backslash or control character. -/
def EmJelem.AllPlain (elem : EmJelem) : Prop :=
  Json.Plain elem.key.text ∧
    ∀ text, elem.val = .string text → Json.Plain text.text

theorem EmJelem.readable_iff_allPlain {elem : EmJelem}
    (exact : elem.val.Exact) : elem.Readable ↔ elem.AllPlain := by
  obtain ⟨key, val⟩ := elem
  rw [EmJelem.Readable, EmJelem.AllPlain]
  cases val with
  | integer value => simp [EmJsonval.Readable]
  | string value => simp [EmJsonval.Readable]
  | floating value => exact exact.elim
  | jobj => exact exact.elim
  | unknown => exact exact.elim

/-- Where the call succeeds, the object is read as its elements exactly if
nothing in them had to be escaped. -/
theorem emJsonSnprintObj_roundTrip_iff (inhabited : obj.elems ≠ [])
    (exact : ∀ elem ∈ obj.elems, elem.val.Exact)
    (isInt : toInt32 len = len) (dst : ℤ) :
    (0 ≤ (emJsonSnprintObj obj dst len .nothing).1 →
      ∀ memory, ReadsAs obj.elems (obj.output dst len memory)) ↔
      len ≤ obj.text.length ∨ ∀ elem ∈ obj.elems, elem.AllPlain := by
  have upper := le_intMax_of_toInt32 isInt
  have supported : obj.Supported := by
    intro elem member
    exact (exact elem member).supported
  have plain : (∀ elem ∈ obj.elems, elem.Readable) ↔
      ∀ elem ∈ obj.elems, elem.AllPlain := by
    apply forall₂_congr
    intro elem member
    exact EmJelem.readable_iff_allPlain (exact elem member)
  have same := obj.printed_eq_text inhabited
  rcases lt_or_ge (obj.text.length : ℤ) len with fits | cut
  · have room : (obj.printed.length : ℤ) < len := by
      rw [same]
      exact fits
    have returned : 0 ≤ (emJsonSnprintObj obj dst len .nothing).1 := by
      rw [EmJobj.emJsonSnprintObj_eq_printed supported upper room]
      exact Int.natCast_nonneg _
    have output := @EmJobj.output_eq obj dst len supported upper room
    rw [← plain, ← text_reads_iff inhabited]
    simp only [returned, output, same, forall_const,
      not_le.mpr fits, false_or]
  · have size : (obj.size : ℤ) = obj.text.length := by
      rw [← same, EmJobj.printed_length_eq supported]
    have refused := (emJsonSnprintObj_sized obj).2 dst len .nothing upper
      (by rw [size]; exact cut)
    constructor
    · exact fun _ => .inl cut
    · intro _ succeeds
      rw [refused] at succeeds
      exact absurd succeeds (by decide)

theorem string_roundTrip :
    ReadsAs [⟨.ofList (ascii "cc") (by decide),
        .string (.ofList (ascii "xyz") (by decide))⟩]
      (EmJobj.output ⟨[⟨.ofList (ascii "cc") (by decide),
        .string (.ofList (ascii "xyz") (by decide))⟩]⟩ 0 128 fun _ => 0) := by
  apply (emJsonSnprintObj_roundTrip_iff (List.cons_ne_nil _ _) _
    (by decide) 0).mpr
  · right
    intro elem member
    obtain rfl := List.mem_singleton.mp member
    refine ⟨by decide +kernel, ?_⟩
    intro text same
    cases same
    decide +kernel
  · decide +kernel
  · intro elem member
    obtain rfl := List.mem_singleton.mp member
    trivial

/-- A quotation mark as a key: `{ """: 1 }`. -/
theorem quote_key_unread :
    ¬ ∀ (obj : EmJobj) (dst len : ℤ), obj.elems ≠ [] →
      (∀ elem ∈ obj.elems, elem.val.Exact) → toInt32 len = len →
      0 ≤ (emJsonSnprintObj obj dst len .nothing).1 →
      ∀ memory, ReadsAs obj.elems (obj.output dst len memory) := by
  intro reads
  obtain ⟨members, parsed, _⟩ := reads
    ⟨[⟨.ofList (ascii "\"") (by decide), .integer 1⟩]⟩ 0 128
    (List.cons_ne_nil _ _) (by simp [EmJsonval.Exact]) (by decide)
    (by decide +kernel) (fun _ => 0)
  have refused : (Json.parse (EmJobj.output
      ⟨[⟨.ofList (ascii "\"") (by decide), .integer 1⟩]⟩ 0 128
      fun _ => 0)).isNone = true := by
    decide +kernel
  rw [parsed] at refused
  cases refused

end Printing

end EmbeddedMiddle
