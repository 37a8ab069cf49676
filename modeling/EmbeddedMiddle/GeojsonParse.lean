import EmbeddedMiddle.Foundation.Scanf
import EmbeddedMiddle.GeojsonBounds

/-!
# Reading a point back

`em_parse_geojson_point` on what the printers of `em_geojson.c` leave in the
buffer: the bracket it looks for is the one before the coordinates, in every
text that contains a point.
-/

namespace EmbeddedMiddle

open Foundation

/-! ## The parser -/

/-- `"[ %lf , %lf ]"`. -/
def pointFormat : List ScanDirective :=
  [.byte 91, .blanks, .double, .blanks, .byte 44, .blanks, .double, .blanks,
    .byte 93]

/-- What is returned and the values that are stored, the longitude first.
Without a bracket `sscanf` gets the null pointer that `strstr` returns. -/
def emParseGeojsonPoint (src : List UInt8) : Option (ℤ × List Double) :=
  match src.dropWhile (· ≠ 91) with
  | [] => none
  | bracket :: text => some (sscanf (bracket :: text) pointFormat [])

example : emParseGeojsonPoint (ascii "[ 5e-1 ,-35]") =
    some (2, [.nearest false (1 / 2), .nearest true 35]) := by
  decide +kernel

example : emParseGeojsonPoint (ascii "\"type\": [\"Point\"]") =
    some (0, []) := by
  decide +kernel

/-! ## A printed point -/

theorem breaks_comma (text : List UInt8) : Strtod.Breaks (44 :: text) := by
  intro byte inside
  cases inside
  decide

theorem breaks_bracket (text : List UInt8) : Strtod.Breaks (93 :: text) := by
  intro byte inside
  cases inside
  decide

/-- The first bracket is the one before the coordinates. -/
theorem emParseGeojsonPoint_coordinates (gp : EmGjpoint)
    {before : List UInt8} (noBracket : 91 ∉ before) (behind : List UInt8) :
    emParseGeojsonPoint (before ++ 91 :: (gp.lon.text ++
        44 :: 32 :: (gp.lat.text ++ 93 :: behind))) =
      some (2, [gp.lon.reread, gp.lat.reread]) := by
  have found : (before ++ 91 :: (gp.lon.text ++
      44 :: 32 :: (gp.lat.text ++ 93 :: behind))).dropWhile (· ≠ 91) =
        91 :: (gp.lon.text ++ 44 :: 32 :: (gp.lat.text ++ 93 :: behind)) := by
    rw [List.dropWhile_append_of_pos, List.dropWhile_cons_of_neg (by simp)]
    intro byte member
    simpa using ne_of_mem_of_not_mem member noBracket
  rw [emParseGeojsonPoint, found]
  simp only [pointFormat]
  rw [sscanf_byte, sscanf_blanks_double _ (breaks_comma _),
    sscanf_noBlank (by decide), sscanf_byte, sscanf_blank (by decide),
    sscanf_blanks_double _ (breaks_bracket _), sscanf_noBlank (by decide),
    sscanf_byte]
  rfl

/-! ## The printed texts -/

/-- A call that prints a point, alone or inside of another text. -/
inductive PointPrinter where
  | point
  | geometry
  | feature (properties : Option EmJobj)

namespace PointPrinter

def print (gp : EmGjpoint) : PointPrinter → Printer
  | point => emGeojsonSnprintPoint gp
  | geometry => emGeojsonSnprintGeometry (.point gp)
  | feature properties => emGeojsonSnprintFeature ⟨.point gp, properties⟩

/-- The text as far as the end of the point. -/
def front (gp : EmGjpoint) : PointPrinter → List UInt8
  | point => gp.text
  | geometry => gp.geometryText
  | feature _ => ascii "\x7b \"type\": \"Feature\", " ++ gp.geometryText

variable (gp : EmGjpoint)

theorem propertiesPieces_bounded (properties : Option EmJobj) :
    ∀ print ∈ propertiesPieces properties ++ [snprintf (ascii " \x7d")],
      Bounded print := by
  intro print member
  cases properties with
  | none =>
      obtain rfl := List.mem_singleton.mp member
      exact snprintf_bounded _
  | some obj =>
      simp only [propertiesPieces, List.cons_append, List.nil_append,
        List.mem_cons, List.not_mem_nil, or_false] at member
      rcases member with rfl | rfl | rfl
      · exact snprintf_bounded _
      · exact emJsonSnprintObj_bounded obj
      · exact snprintf_bounded _

/-- Properties are printed behind the point, whatever is in them. -/
theorem print_begins (printer : PointPrinter) :
    Begins (printer.print gp) (printer.front gp) := by
  have alone : ∀ {print : Printer} {text : List UInt8},
      Prints print text → Begins (printPieces [print]) text := by
    intro print text prints
    have begins := @printPieces_begins [print] [] [text]
      (.cons prints .nil) (by simp) (List.cons_ne_nil _ _)
    rwa [List.flatten_singleton] at begins
  cases printer with
  | point =>
      rw [print, front, emGeojsonSnprintPoint, EmGjpoint.text]
      exact alone (snprintf_prints (by simp [ascii]))
  | geometry =>
      have begins := @printPieces_begins _ [] _
        (emGeojsonSnprintGeometry_pieces gp) (by simp)
        (List.cons_ne_nil _ _)
      rwa [List.append_nil, List.flatten_cons,
        List.flatten_singleton] at begins
  | feature properties =>
      have pieces := List.Forall₂.cons
        (@snprintf_prints (ascii "\x7b \"type\": \"Feature\", ") (by decide))
        (.cons (emGeojsonSnprintGeometry_prints gp) .nil)
      have begins := printPieces_begins pieces
        (propertiesPieces_bounded properties) (List.cons_ne_nil _ _)
      rw [List.flatten_cons, List.flatten_singleton, List.cons_append,
        List.cons_append, List.nil_append] at begins
      rw [print, emGeojsonSnprintFeature_eq, List.cons_append,
        List.cons_append]
      exact begins

theorem front_eq (printer : PointPrinter) :
    ∃ before behind, 91 ∉ before ∧ printer.front gp =
      before ++ 91 :: (gp.lon.text ++
        44 :: 32 :: (gp.lat.text ++ 93 :: behind)) := by
  have point : gp.text = ascii "\x7b \"type\": \"Point\", \"coordinates\": " ++
      91 :: (gp.lon.text ++ 44 :: 32 :: (gp.lat.text ++ 93 :: [32, 125])) := by
    simp [EmGjpoint.text, ascii]
  cases printer with
  | point => exact ⟨_, _, by decide, point⟩
  | geometry =>
      refine ⟨ascii "\"geometry\": " ++
        ascii "\x7b \"type\": \"Point\", \"coordinates\": ", [32, 125],
        by decide, ?_⟩
      rw [front, EmGjpoint.geometryText, point, List.append_assoc]
  | feature properties =>
      refine ⟨ascii "\x7b \"type\": \"Feature\", " ++ (ascii "\"geometry\": " ++
        ascii "\x7b \"type\": \"Point\", \"coordinates\": "), [32, 125],
        by decide, ?_⟩
      rw [front, EmGjpoint.geometryText, point, List.append_assoc,
        List.append_assoc]

theorem front_noZero (printer : PointPrinter) : 0 ∉ printer.front gp := by
  have point : 0 ∉ gp.text := by
    simp [EmGjpoint.text, ascii, Double.text_noZero]
  cases printer with
  | point => exact point
  | geometry => exact gp.geometryText_noZero
  | feature properties => simp [front, gp.geometryText_noZero, ascii]

/-- The string in the buffer after the call. -/
def output (printer : PointPrinter) (dst len : ℤ) (memory : ℤ → UInt8) :
    List UInt8 :=
  ((printer.print gp dst len .nothing).2.overlay memory dst).cString
    len.toNat

end PointPrinter

/-! ## Reading a printed point -/

/-- Where a printer of a point succeeds, both coordinates are read back from
its buffer, finite ones to a millionth, whatever the buffer held and whatever
properties are printed behind the point. -/
theorem emParseGeojsonPoint_printed (gp : EmGjpoint) (printer : PointPrinter)
    {dst len : ℤ} (isInt : toInt32 len = len)
    (succeeds : 0 ≤ (printer.print gp dst len .nothing).1)
    (memory : ℤ → UInt8) :
    emParseGeojsonPoint (printer.output gp dst len memory) =
        some (2, [gp.lon.reread, gp.lat.reread]) ∧
      ∀ coordinate ∈ [gp.lon, gp.lat], ∀ exact,
        coordinate.value = some exact →
          ∃ stored, coordinate.reread.value = some stored ∧
            |stored - exact| ≤ 1 / 1000000 := by
  obtain ⟨behind, output⟩ := (printer.print_begins gp).cString
    (printer.front_noZero gp) (le_intMax_of_toInt32 isInt) succeeds memory
  obtain ⟨before, inside, noBracket, front⟩ := printer.front_eq gp
  constructor
  · rw [PointPrinter.output, output, front, List.append_assoc,
      List.cons_append, List.append_assoc, List.cons_append,
      List.cons_append, List.append_assoc, List.cons_append]
    exact emParseGeojsonPoint_coordinates gp noBracket _
  · intro coordinate _ exact isValue
    exact Double.reread_near isValue

/-- A feature whose properties have no elements. -/
theorem emParseGeojsonPoint_printed_feature :
    ∃ lon lat, emParseGeojsonPoint (PointPrinter.output
        ⟨.finite false 5 (-1) (by decide) (by decide),
          .finite true 35 0 (by decide) (by decide)⟩
        (.feature (some ⟨[]⟩)) 0 256 fun _ => 7) = some (2, [lon, lat]) ∧
      lon.value = some (5 / 2) ∧ lat.value = some (-35) :=
  ⟨_, _, (emParseGeojsonPoint_printed
    ⟨.finite false 5 (-1) (by decide) (by decide),
      .finite true 35 0 (by decide) (by decide)⟩ (.feature (some ⟨[]⟩))
    (by decide) (by decide +kernel) fun _ => 7).1, by decide +kernel,
    by decide +kernel⟩

end EmbeddedMiddle
