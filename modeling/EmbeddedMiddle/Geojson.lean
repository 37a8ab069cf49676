import EmbeddedMiddle.Foundation.BoundedPrint
import EmbeddedMiddle.Foundation.Printf

/-!
# Printing JSON and GeoJSON

The printers of `em_geojson.c`.  After each piece they look whether anything
was printed and whether there is room left, and return -1 if not.
-/

namespace EmbeddedMiddle

open Foundation

/-- The union `emu_jsonval_t` with the type that says which member it has. -/
inductive EmJsonval where
  | integer (value : ℤ)
  | floating (value : Double)
  | string (text : CText)
  | jobj
  | unknown

structure EmJelem where
  key : CText
  val : EmJsonval

structure EmJobj where
  elems : List EmJelem

structure EmGjpoint where
  lon : Double
  lat : Double

inductive EmGjgeometry where
  | point (point : EmGjpoint)
  | unknown

/-- Properties that are `none` stand for the null pointer. -/
structure EmGjfeature where
  geometry : EmGjgeometry
  properties : Option EmJobj

/-! ## The printers -/

/-- The `switch` of `em_json_snprint_elem`.  Where nothing is printed, `size`
is still what the print of the key returned. -/
def emJsonSnprintVal (val : EmJsonval) (size : ℤ) : Printer :=
  match val with
  | .integer value => snprintf (intText value)
  | .floating value => snprintf value.text
  | .string text => snprintf (ascii "\"" ++ text.text ++ ascii "\"")
  | .jobj => fun _ _ written => (size, written)
  | .unknown => fun _ _ written => (size, written)

def emJsonSnprintElem (elem : EmJelem) : Printer :=
  fun dst len written =>
    let key := snprintf (ascii "\"" ++ elem.key.text ++ ascii "\": ")
    let size := (key dst len written).1
    printPieces [key, emJsonSnprintVal elem.val size] dst len written

def emJsonSnprintObj (obj : EmJobj) : Printer :=
  fun dst len written =>
    let pieces := snprintf (ascii "\x7b ") ::
      obj.elems.flatMap fun elem =>
        [emJsonSnprintElem elem, snprintf (ascii ", ")]
    let (offset, written) := printPieces pieces dst len written
    if offset = -1 then (-1, written)
    else
      -- over the last separator, with no look at the room
      (offset, (snprintf (ascii " \x7d") (dst + offset - 2) 3 written).2)

def emGeojsonSnprintPoint (gp : EmGjpoint) : Printer :=
  printPieces
    [snprintf
      (ascii "\x7b \"type\": \"Point\", \"coordinates\": [" ++
        gp.lon.text ++ ascii ", " ++ gp.lat.text ++ ascii "] \x7d")]

def emGeojsonSnprintGeometry (geometry : EmGjgeometry) : Printer :=
  printPieces
    [snprintf (ascii "\"geometry\": "),
      match geometry with
      | .point point => emGeojsonSnprintPoint point
      | .unknown => fun _ _ written => (-1, written)]

def emGeojsonSnprintFeature (gf : EmGjfeature) : Printer :=
  printPieces
    (snprintf (ascii "\x7b \"type\": \"Feature\", ") ::
      emGeojsonSnprintGeometry gf.geometry ::
      (match gf.properties with
        | some properties =>
            [snprintf (ascii ", \"properties\": "),
              emJsonSnprintObj properties]
        | none => []) ++
      [snprintf (ascii " \x7d")])

/-! ## The texts -/

namespace EmJsonval

/-- The types that `em_json_snprint_elem` prints. -/
def supported : EmJsonval → Bool
  | integer _ => true
  | floating _ => true
  | string _ => true
  | jobj => false
  | unknown => false

def text : EmJsonval → List UInt8
  | integer value => intText value
  | floating value => value.text
  | string text => ascii "\"" ++ text.text ++ ascii "\""
  | jobj => []
  | unknown => []

end EmJsonval

namespace EmJelem

def keyText (elem : EmJelem) : List UInt8 :=
  ascii "\"" ++ elem.key.text ++ ascii "\": "

def text (elem : EmJelem) : List UInt8 := elem.keyText ++ elem.val.text

/-- The size that `em_json_snprint_elem` returns. -/
def size (elem : EmJelem) : ℕ :=
  elem.keyText.length +
    if elem.val.supported then elem.val.text.length else elem.keyText.length

end EmJelem

namespace EmJobj

def Supported (obj : EmJobj) : Prop :=
  ∀ elem ∈ obj.elems, elem.val.supported = true

instance (obj : EmJobj) : Decidable obj.Supported :=
  inferInstanceAs (Decidable (∀ elem ∈ obj.elems, _))

/-- The text before the closing brace is put over its end. -/
def unclosed (obj : EmJobj) : List UInt8 :=
  ascii "\x7b " ++ obj.elems.flatMap fun elem => elem.text ++ ascii ", "

def printed (obj : EmJobj) : List UInt8 :=
  obj.unclosed.take (obj.unclosed.length - 2) ++ ascii " \x7d"

/-- The elements with commas between them, in braces. -/
def text (obj : EmJobj) : List UInt8 :=
  ascii "\x7b " ++
    (ascii ", ").intercalate (obj.elems.map EmJelem.text) ++ ascii " \x7d"

def size (obj : EmJobj) : ℕ :=
  2 + (obj.elems.map fun elem => elem.size + 2).sum

end EmJobj

def EmGjpoint.text (gp : EmGjpoint) : List UInt8 :=
  ascii "\x7b \"type\": \"Point\", \"coordinates\": [" ++
    gp.lon.text ++ ascii ", " ++ gp.lat.text ++ ascii "] \x7d"

/-- The geometry of a point. -/
def EmGjpoint.geometryText (gp : EmGjpoint) : List UInt8 :=
  ascii "\"geometry\": " ++ gp.text

/-- The feature of a point, with the text of its properties. -/
def EmGjpoint.featureText (gp : EmGjpoint)
    (properties : Option (List UInt8)) : List UInt8 :=
  ascii "\x7b \"type\": \"Feature\", " ++ gp.geometryText ++
    (match properties with
      | some text => ascii ", \"properties\": " ++ text
      | none => []) ++ ascii " \x7d"

/-- The size that `em_geojson_snprint_feature` returns. -/
def EmGjpoint.featureSize (gp : EmGjpoint) (properties : Option EmJobj) : ℕ :=
  (ascii "\x7b \"type\": \"Feature\", ").length + gp.geometryText.length +
    (match properties with
      | some obj => (ascii ", \"properties\": ").length + obj.size
      | none => 0) + (ascii " \x7d").length

end EmbeddedMiddle
