import EmbeddedMiddle.GeojsonBounds

/-!
# Elements that the JSON printers cannot print

Where an element has another type, nothing is printed for it, but the size of
its key is counted twice.
-/

namespace EmbeddedMiddle

open Foundation

/-- A call of one of the printers that get elements. -/
inductive JsonCall where
  | elem (elem : EmJelem)
  | obj (obj : EmJobj)
  | feature (gf : EmGjfeature)

namespace JsonCall

def print : JsonCall → Printer
  | .elem element => emJsonSnprintElem element
  | .obj object => emJsonSnprintObj object
  | .feature gf => emGeojsonSnprintFeature gf

/-- All elements have a type that is printed. -/
def Supported : JsonCall → Prop
  | .elem element => element.val.supported = true
  | .obj object => object.Supported
  | .feature gf => ∀ obj ∈ gf.properties, obj.Supported

/-- The room ends before the gap behind an element can be reported as text; a
geometry of another type ends the call as well. -/
def Short (len : ℤ) : JsonCall → Prop
  | .elem element => len ≤ element.size
  | .obj object => len ≤ object.size
  | .feature ⟨.point gp, properties⟩ => len ≤ gp.featureSize properties
  | .feature ⟨.unknown, _⟩ => True

/-- Elements that cannot be printed make the call fail, and where it does not
fail, it has written what it says. -/
def Reported (call : JsonCall) (dst len : ℤ) : Prop :=
  (¬ call.Supported → (call.print dst len .nothing).1 = -1) ∧
    WritesAll call.print dst len

variable {call : JsonCall} {dst len : ℤ}

theorem reported_of_short (isInt : len ≤ intMax) (short : call.Short len) :
    call.Reported dst len := by
  have refused : (call.print dst len .nothing).1 = -1 := by
    match call, short with
    | .elem element, short =>
        exact (emJsonSnprintElem_sized element).2 dst len _ isInt short
    | .obj object, short =>
        exact (emJsonSnprintObj_sized object).2 dst len _ isInt short
    | .feature ⟨.point gp, properties⟩, short =>
        exact (emGeojsonSnprintFeature_sized gp properties).2 dst len _
          isInt short
    | .feature ⟨.unknown, properties⟩, _ =>
        exact emGeojsonSnprintFeature_unknown properties dst len _
  refine ⟨fun _ => refused, ?_⟩
  intro succeeds
  rw [refused] at succeeds
  exact absurd succeeds (by decide)

theorem writesAll_of_supported (isInt : len ≤ intMax)
    (supported : call.Supported) : WritesAll call.print dst len := by
  match call, supported with
  | .elem element, supported =>
      apply (emJsonSnprintElem_prints supported).writesAll _
        element.text_noZero isInt
      rw [← EmJelem.size_of_supported supported]
      exact (emJsonSnprintElem_sized element).2
  | .obj object, supported =>
      apply (emJsonSnprintObj_prints supported).writesAll _
        object.printed_noZero isInt
      rw [EmJobj.printed_length_eq supported]
      exact (emJsonSnprintObj_sized object).2
  | .feature ⟨.point gp, properties⟩, supported =>
      apply (emGeojsonSnprintFeature_prints gp supported).writesAll _
        (gp.featurePrinted_noZero properties) isInt
      rw [length_featureText gp supported]
      exact (emGeojsonSnprintFeature_sized gp properties).2
  | .feature ⟨.unknown, properties⟩, _ =>
      intro succeeds
      have refused := emGeojsonSnprintFeature_unknown properties dst len
        .nothing
      rw [print, refused] at succeeds
      exact absurd succeeds (by decide)

/-- With room behind the gap the call returns a size. -/
theorem returns_of_room (isInt : len ≤ intMax) (room : ¬ call.Short len) :
    0 ≤ (call.print dst len .nothing).1 := by
  match call, room with
  | .elem element, room =>
      have fits := (emJsonSnprintElem_sized element).1.fits dst len .nothing
        isInt (not_le.mp room)
      rw [print, fits]
      exact Int.natCast_nonneg _
  | .obj object, room =>
      have fits := (emJsonSnprintObj_sized object).1.fits dst len .nothing
        isInt (not_le.mp room)
      rw [print, fits]
      exact Int.natCast_nonneg _
  | .feature ⟨.point gp, properties⟩, room =>
      have fits := (emGeojsonSnprintFeature_sized gp properties).1.fits
        dst len .nothing isInt (not_le.mp room)
      rw [print, fits]
      exact Int.natCast_nonneg _
  | .feature ⟨.unknown, _⟩, room => exact absurd trivial room

/-- An element that cannot be printed goes unreported as soon as the room
reaches behind the gap it leaves. -/
theorem reported_iff (isInt : toInt32 len = len) :
    call.Reported dst len ↔ call.Supported ∨ call.Short len := by
  have upper := le_intMax_of_toInt32 isInt
  constructor
  · intro reported
    by_cases supported : call.Supported
    · exact .inl supported
    · right
      by_contra room
      have returned := @returns_of_room call dst len upper room
      rw [reported.1 supported] at returned
      exact absurd returned (by decide)
  · rintro (supported | short)
    · exact ⟨fun unsupported => absurd supported unsupported,
        writesAll_of_supported upper supported⟩
    · exact reported_of_short upper short

theorem jobj_cut_off :
    Reported (.elem ⟨.ofList (ascii "k") (by decide), .jobj⟩) 0 10 :=
  (reported_iff (by decide)).mpr (.inr (by
    change (10 : ℤ) ≤ EmJelem.size _
    decide +kernel))

/-- `{ "a": 1, "k": ` and a gap of five bytes, as if it were text. -/
theorem jobj_unreported :
    ¬ ∀ (call : JsonCall) (dst len : ℤ), toInt32 len = len →
      call.Reported dst len := by
  intro reported
  have refused := (reported
    (.obj ⟨[⟨.ofList (ascii "a") (by decide), .integer 1⟩,
      ⟨.ofList (ascii "k") (by decide), .jobj⟩]⟩) 0 128 (by decide)).1
    (by
      change ¬ EmJobj.Supported _
      decide)
  exact absurd refused (by decide +kernel)

end JsonCall

end EmbeddedMiddle
