import EmbeddedMiddle.Geojson

/-!
# The room of the GeoJSON printers

What each printer needs, that it keeps to the buffer and what text it leaves
behind.  The brace that closes an object is put over the last separator, whose
two bytes and zero have passed the look at the room.
-/

namespace EmbeddedMiddle

open Foundation

/-! ## Elements -/

namespace EmJelem

variable {elem : EmJelem}

theorem keyText_ne_nil : elem.keyText ≠ [] := by
  simp [keyText, ascii]

theorem size_of_supported (supported : elem.val.supported = true) :
    elem.size = elem.text.length := by
  rw [size, if_pos supported, text, List.length_append]

end EmJelem

theorem EmJsonval.text_ne_nil {val : EmJsonval}
    (supported : val.supported = true) : val.text ≠ [] := by
  cases val with
  | integer value => exact intText_ne_nil value
  | floating value => exact value.text_ne_nil
  | string value => simp [text, ascii]
  | jobj => cases supported
  | unknown => cases supported

theorem emJsonSnprintVal_eq {val : EmJsonval}
    (supported : val.supported = true) (size : ℤ) :
    emJsonSnprintVal val size = snprintf val.text := by
  cases val with
  | integer value => rfl
  | floating value => rfl
  | string value => rfl
  | jobj => cases supported
  | unknown => cases supported

/-- Nothing is printed, and the size of the key is returned again. -/
theorem emJsonSnprintVal_unsupported {val : EmJsonval}
    (unsupported : val.supported = false) (size : ℤ) :
    emJsonSnprintVal val size = fun _ _ written => (size, written) := by
  cases val with
  | integer value => cases unsupported
  | floating value => cases unsupported
  | string value => cases unsupported
  | jobj => rfl
  | unknown => rfl

/-- What the print of the key returns wherever it prints. -/
def EmJelem.keySize (elem : EmJelem) : ℤ :=
  if elem.keyText.length ≤ intMax then elem.keyText.length else -1

theorem emJsonSnprintElem_eq (elem : EmJelem) :
    emJsonSnprintElem elem =
      printPieces [snprintf elem.keyText,
        emJsonSnprintVal elem.val elem.keySize] := rfl

theorem emJsonSnprintVal_sized (elem : EmJelem) :
    Sized (emJsonSnprintVal elem.val elem.keySize)
      (if elem.val.supported then elem.val.text.length
        else elem.keyText.length) := by
  cases supported : elem.val.supported with
  | true =>
      rw [emJsonSnprintVal_eq supported]
      exact snprintf_sized (EmJsonval.text_ne_nil supported)
  | false =>
      have printed := snprintf_sized elem.keyText_ne_nil
      rw [emJsonSnprintVal_unsupported supported]
      exact ⟨printed.positive, printed.fits, printed.cut⟩

theorem emJsonSnprintElem_sized (elem : EmJelem) :
    Sized (emJsonSnprintElem elem) elem.size ∧
      Refuses (emJsonSnprintElem elem) elem.size := by
  have pieces := List.Forall₂.cons (snprintf_sized elem.keyText_ne_nil)
    (.cons (emJsonSnprintVal_sized elem) .nil)
  rw [emJsonSnprintElem_eq]
  exact ⟨printPieces_sized pieces (List.cons_ne_nil _ _),
    printPieces_refuses pieces (List.cons_ne_nil _ _)⟩

theorem emJsonSnprintElem_bounded (elem : EmJelem) :
    Bounded (emJsonSnprintElem elem) := by
  rw [emJsonSnprintElem_eq]
  apply printPieces_bounded
  intro print member
  rcases List.mem_pair.mp member with rfl | rfl
  · exact snprintf_bounded _
  · cases supported : elem.val.supported with
    | true =>
        rw [emJsonSnprintVal_eq supported]
        exact snprintf_bounded _
    | false =>
        rw [emJsonSnprintVal_unsupported supported]
        intro dst len written _ _ address _
        rfl

theorem emJsonSnprintElem_prints {elem : EmJelem}
    (supported : elem.val.supported = true) :
    Prints (emJsonSnprintElem elem) elem.text := by
  have pieces := List.Forall₂.cons (snprintf_prints elem.keyText_ne_nil)
    (.cons (snprintf_prints (EmJsonval.text_ne_nil supported)) .nil)
  have whole := printPieces_prints pieces (List.cons_ne_nil _ _)
  rw [List.flatten_cons, List.flatten_singleton] at whole
  rw [emJsonSnprintElem_eq, emJsonSnprintVal_eq supported]
  exact whole

/-! ## Objects -/

def EmJobj.pieces (obj : EmJobj) : List Printer :=
  snprintf (ascii "\x7b ") ::
    obj.elems.flatMap fun elem =>
      [emJsonSnprintElem elem, snprintf (ascii ", ")]

namespace EmJobj

variable {obj : EmJobj}

theorem pieces_ne_nil : obj.pieces ≠ [] := List.cons_ne_nil _ _

def sizes (obj : EmJobj) : List ℕ :=
  2 :: obj.elems.flatMap fun elem => [elem.size, 2]

theorem sizes_sum : obj.sizes.sum = obj.size := by
  rw [sizes, List.sum_cons, size]
  congr 1
  induction obj.elems with
  | nil => rfl
  | cons elem elems induction =>
      rw [List.flatMap_cons, List.sum_append, induction, List.map_cons,
        List.sum_cons]
      simp

theorem pieces_sized : List.Forall₂ Sized obj.pieces obj.sizes := by
  have separator : Sized (snprintf (ascii ", ")) 2 :=
    @snprintf_sized (ascii ", ") (by decide)
  refine .cons (@snprintf_sized (ascii "\x7b ") (by decide)) ?_
  apply forall₂_flatMap
  intro elem _
  exact .cons (emJsonSnprintElem_sized elem).1 (.cons separator .nil)

theorem pieces_bounded : ∀ print ∈ obj.pieces, Bounded print := by
  rw [pieces, List.forall_mem_cons]
  refine ⟨snprintf_bounded _, ?_⟩
  intro print member
  obtain ⟨elem, _, inside⟩ := List.mem_flatMap.mp member
  rcases List.mem_pair.mp inside with rfl | rfl
  · exact emJsonSnprintElem_bounded elem
  · exact snprintf_bounded _

theorem pieces_print (supported : obj.Supported) :
    Prints (printPieces obj.pieces) obj.unclosed := by
  have prints : List.Forall₂ Prints obj.pieces
      (ascii "\x7b " ::
        obj.elems.flatMap fun elem => [elem.text, ascii ", "]) := by
    refine .cons (snprintf_prints (by decide)) ?_
    apply forall₂_flatMap
    intro elem member
    exact .cons (emJsonSnprintElem_prints (supported elem member))
      (.cons (snprintf_prints (by decide)) .nil)
  have whole := printPieces_prints prints pieces_ne_nil
  rw [List.flatten_cons, List.flatten_eq_flatMap, List.flatMap_assoc] at whole
  simpa [unclosed] using whole

theorem size_of_supported (supported : obj.Supported) :
    obj.size = obj.unclosed.length := by
  have elements : obj.elems.map (fun elem => elem.size + 2) =
      obj.elems.map fun elem => (elem.text ++ ascii ", ").length := by
    apply List.map_congr_left
    intro elem member
    rw [EmJelem.size_of_supported (supported elem member),
      List.length_append]
    rfl
  rw [size, elements, unclosed, List.length_append, List.length_flatMap]
  rfl

theorem length_printed : obj.printed.length = obj.unclosed.length := by
  have opened : 2 ≤ obj.unclosed.length := by simp [unclosed, ascii]
  rw [printed, List.length_append, List.length_take]
  have : (ascii " \x7d").length = 2 := rfl
  omega

theorem printed_length_eq (supported : obj.Supported) :
    obj.printed.length = obj.size := by
  rw [length_printed, size_of_supported supported]

end EmJobj

theorem emJsonSnprintObj_eq (obj : EmJobj) (dst len : ℤ)
    (written : Written) :
    emJsonSnprintObj obj dst len written =
      if (printPieces obj.pieces dst len written).1 = -1
      then (-1, (printPieces obj.pieces dst len written).2)
      else ((printPieces obj.pieces dst len written).1,
        (snprintf (ascii " \x7d")
          (dst + (printPieces obj.pieces dst len written).1 - 2) 3
          (printPieces obj.pieces dst len written).2).2) := rfl

section Objects

variable {obj : EmJobj} {dst len : ℤ} {written : Written}

theorem pieces_fit (isInt : len ≤ intMax) (fits : obj.size < len) :
    (printPieces obj.pieces dst len written).1 = obj.size := by
  rw [← EmJobj.sizes_sum] at fits ⊢
  exact (printPieces_sized EmJobj.pieces_sized EmJobj.pieces_ne_nil).fits
    dst len written isInt fits

theorem pieces_cut (isInt : len ≤ intMax) (cut : len ≤ obj.size) :
    (printPieces obj.pieces dst len written).1 = -1 := by
  rw [← EmJobj.sizes_sum] at cut
  exact printPieces_refuses EmJobj.pieces_sized EmJobj.pieces_ne_nil
    dst len written isInt cut

theorem emJsonSnprintObj_fit (isInt : len ≤ intMax) (fits : obj.size < len) :
    emJsonSnprintObj obj dst len written =
      ((obj.size : ℤ), (snprintf (ascii " \x7d") (dst + obj.size - 2) 3
        (printPieces obj.pieces dst len written).2).2) := by
  rw [emJsonSnprintObj_eq, pieces_fit isInt fits, if_neg (by omega)]

theorem emJsonSnprintObj_cut (isInt : len ≤ intMax)
    (cut : len ≤ obj.size) :
    emJsonSnprintObj obj dst len written =
      (-1, (printPieces obj.pieces dst len written).2) := by
  rw [emJsonSnprintObj_eq, pieces_cut isInt cut, if_pos rfl]

end Objects

theorem emJsonSnprintObj_sized (obj : EmJobj) :
    Sized (emJsonSnprintObj obj) obj.size ∧
      Refuses (emJsonSnprintObj obj) obj.size := by
  refine ⟨⟨?_, ?_, ?_⟩, ?_⟩
  · exact Nat.add_pos_left (by decide) _
  · intro dst len written isInt fits
    rw [emJsonSnprintObj_fit isInt fits]
  · intro dst len written isInt cut
    rw [emJsonSnprintObj_cut isInt cut]
    exact .inl (by simp)
  · intro dst len written isInt cut
    rw [emJsonSnprintObj_cut isInt cut]

theorem emJsonSnprintObj_bounded (obj : EmJobj) :
    Bounded (emJsonSnprintObj obj) := by
  intro dst len written started isInt address outside
  have before := printPieces_bounded obj.pieces_bounded dst len written
    started isInt address outside
  rcases lt_or_ge (obj.size : ℤ) len with fits | cut
  · have opened : 2 ≤ obj.size := Nat.le_add_right 2 _
    have patch := snprintf_bounded (ascii " \x7d") (dst + obj.size - 2) 3
      (printPieces obj.pieces dst len written).2 (by decide) (by decide)
      address (by omega)
    rw [emJsonSnprintObj_fit isInt fits]
    exact patch.trans before
  · rw [emJsonSnprintObj_cut isInt cut]
    exact before

/-- The brace is put over the last separator and its zero. -/
theorem emJsonSnprintObj_prints {obj : EmJobj} (supported : obj.Supported) :
    Prints (emJsonSnprintObj obj) obj.printed := by
  have size := EmJobj.size_of_supported supported
  have opened : 2 ≤ obj.unclosed.length := by
    simp [EmJobj.unclosed, ascii]
  refine ⟨?_, emJsonSnprintObj_bounded obj, ?_⟩
  · rw [EmJobj.length_printed, ← size]
    exact (emJsonSnprintObj_sized obj).1
  · intro dst len written isInt fits
    rw [EmJobj.length_printed] at fits
    have kept : (obj.unclosed.take (obj.unclosed.length - 2)).length =
        obj.unclosed.length - 2 := by
      rw [List.length_take]
      omega
    have split : obj.unclosed ++ [0] =
        obj.unclosed.take (obj.unclosed.length - 2) ++
          (obj.unclosed.drop (obj.unclosed.length - 2) ++ [0]) := by
      rw [← List.append_assoc, List.take_append_drop]
    have start : dst + (obj.size : ℤ) - 2 = dst +
        (obj.unclosed.take (obj.unclosed.length - 2)).length := by
      rw [kept, size]
      omega
    rw [emJsonSnprintObj_fit isInt (by omega),
      (EmJobj.pieces_print supported).writes dst len written isInt fits,
      (@snprintf_prints (ascii " \x7d") (by decide)).writes
        _ 3 _ (by decide) (by decide), start, split,
      Written.put_put _ _ _ (by simp [ascii]; omega), EmJobj.printed,
      List.append_assoc]

/-- A separator behind every text is a separator between two and one more. -/
theorem flatMap_separator {Item : Type*} (text : Item → List UInt8)
    (separator : List UInt8) {items : List Item} (some : items ≠ []) :
    items.flatMap (fun item => text item ++ separator) =
      separator.intercalate (items.map text) ++ separator := by
  induction items with
  | nil => exact absurd rfl some
  | cons item items induction =>
      cases items with
      | nil => simp
      | cons next items =>
          rw [List.flatMap_cons, induction (List.cons_ne_nil _ _)]
          simp [List.intercalate_cons_cons]

namespace EmJobj

variable {obj : EmJobj}

theorem printed_eq_text (some : obj.elems ≠ []) : obj.printed = obj.text := by
  have separated : obj.unclosed = ascii "\x7b " ++
      (ascii ", ").intercalate (obj.elems.map EmJelem.text) ++
        ascii ", " := by
    rw [unclosed, flatMap_separator _ _ some, List.append_assoc]
  have length : (ascii ", ").length = 2 := rfl
  rw [printed, text, separated, List.length_append, length,
    Nat.add_sub_cancel, List.take_left]

theorem printed_of_empty (empty : obj.elems = []) :
    obj.printed = ascii " \x7d" := by
  simp [printed, unclosed, empty, ascii]

end EmJobj

/-! ## Texts without a zero byte -/

theorem EmJsonval.text_noZero (val : EmJsonval) : 0 ∉ val.text := by
  cases val with
  | integer value => exact intText_noZero value
  | floating value => exact value.text_noZero
  | string value => simp [text, ascii, value.noZero]
  | jobj => exact List.not_mem_nil
  | unknown => exact List.not_mem_nil

theorem EmJelem.text_noZero (elem : EmJelem) : 0 ∉ elem.text := by
  simp [EmJelem.text, keyText, ascii, elem.key.noZero,
    elem.val.text_noZero]

theorem EmJobj.printed_noZero (obj : EmJobj) : 0 ∉ obj.printed := by
  have opened : 0 ∉ obj.unclosed := by
    simp [EmJobj.unclosed, ascii, EmJelem.text_noZero]
  intro zero
  rcases List.mem_append.mp zero with before | brace
  · exact opened (List.mem_of_mem_take before)
  · exact absurd brace (by decide)

theorem EmGjpoint.geometryText_noZero (gp : EmGjpoint) :
    0 ∉ gp.geometryText := by
  simp [geometryText, EmGjpoint.text, ascii, Double.text_noZero]

theorem EmGjpoint.featurePrinted_noZero (gp : EmGjpoint)
    (properties : Option EmJobj) :
    0 ∉ gp.featureText (properties.map EmJobj.printed) := by
  cases properties with
  | none => simp [featureText, gp.geometryText_noZero, ascii]
  | some obj =>
      simp [featureText, gp.geometryText_noZero, obj.printed_noZero, ascii]

/-! ## Features -/

theorem emGeojsonSnprintPoint_prints (gp : EmGjpoint) :
    Prints (emGeojsonSnprintPoint gp) gp.text := by
  have piece : Prints (snprintf gp.text) gp.text :=
    snprintf_prints (by simp [EmGjpoint.text, ascii])
  have whole := printPieces_prints (.cons piece .nil) (List.cons_ne_nil _ _)
  rw [List.flatten_singleton] at whole
  exact whole

theorem emGeojsonSnprintGeometry_pieces (gp : EmGjpoint) :
    List.Forall₂ Prints
      [snprintf (ascii "\"geometry\": "), emGeojsonSnprintPoint gp]
      [ascii "\"geometry\": ", gp.text] :=
  .cons (snprintf_prints (by decide))
    (.cons (emGeojsonSnprintPoint_prints gp) .nil)

theorem emGeojsonSnprintGeometry_prints (gp : EmGjpoint) :
    Prints (emGeojsonSnprintGeometry (.point gp)) gp.geometryText := by
  have whole := printPieces_prints (emGeojsonSnprintGeometry_pieces gp)
    (List.cons_ne_nil _ _)
  rw [List.flatten_cons, List.flatten_singleton] at whole
  exact whole

theorem emGeojsonSnprintGeometry_refuses (gp : EmGjpoint) :
    Refuses (emGeojsonSnprintGeometry (.point gp))
      gp.geometryText.length := by
  have whole := printPieces_refuses
    (printed_sized (emGeojsonSnprintGeometry_pieces gp))
    (List.cons_ne_nil _ _)
  rw [← List.length_flatten, List.flatten_cons,
    List.flatten_singleton] at whole
  exact whole

theorem emGeojsonSnprintGeometry_unknown (dst len : ℤ) (written : Written) :
    (emGeojsonSnprintGeometry .unknown dst len written).1 ≤ 0 := by
  have refused := @printFrom_refused dst len 0
    [snprintf (ascii "\"geometry\": "), fun _ _ written => (-1, written)]
    written (fun _ _ written => (-1, written)) (by simp)
    (fun _ _ _ => by simp)
  rw [emGeojsonSnprintGeometry, printPieces, refused]
  decide

/-- The pieces that print the properties. -/
def propertiesPieces : Option EmJobj → List Printer
  | some obj => [snprintf (ascii ", \"properties\": "), emJsonSnprintObj obj]
  | none => []

theorem emGeojsonSnprintFeature_eq (geometry : EmGjgeometry)
    (properties : Option EmJobj) :
    emGeojsonSnprintFeature ⟨geometry, properties⟩ =
      printPieces
        (snprintf (ascii "\x7b \"type\": \"Feature\", ") ::
          emGeojsonSnprintGeometry geometry ::
          propertiesPieces properties ++ [snprintf (ascii " \x7d")]) := by
  cases properties with
  | none => rfl
  | some obj => rfl

theorem emGeojsonSnprintFeature_unknown (properties : Option EmJobj)
    (dst len : ℤ) (written : Written) :
    (emGeojsonSnprintFeature ⟨.unknown, properties⟩ dst len written).1 =
      -1 := by
  rw [emGeojsonSnprintFeature_eq, printPieces]
  exact printFrom_refused
    (List.mem_cons_of_mem _ (List.mem_cons_self))
    emGeojsonSnprintGeometry_unknown

def propertiesSizes : Option EmJobj → List ℕ
  | some obj => [(ascii ", \"properties\": ").length, obj.size]
  | none => []

theorem propertiesPieces_sized (properties : Option EmJobj) :
    List.Forall₂ Sized (propertiesPieces properties)
      (propertiesSizes properties) := by
  cases properties with
  | none => exact .nil
  | some obj =>
      exact .cons (snprintf_sized (by decide))
        (.cons (emJsonSnprintObj_sized obj).1 .nil)

def propertiesTexts : Option EmJobj → List (List UInt8)
  | some obj => [ascii ", \"properties\": ", obj.printed]
  | none => []

theorem propertiesPieces_print {properties : Option EmJobj}
    (supported : ∀ obj ∈ properties, obj.Supported) :
    List.Forall₂ Prints (propertiesPieces properties)
      (propertiesTexts properties) := by
  cases properties with
  | none => exact .nil
  | some obj =>
      exact .cons (snprintf_prints (by decide))
        (.cons (emJsonSnprintObj_prints (supported obj rfl)) .nil)

theorem emGeojsonSnprintFeature_sized (gp : EmGjpoint)
    (properties : Option EmJobj) :
    Sized (emGeojsonSnprintFeature ⟨.point gp, properties⟩)
        (gp.featureSize properties) ∧
      Refuses (emGeojsonSnprintFeature ⟨.point gp, properties⟩)
        (gp.featureSize properties) := by
  have closing := @snprintf_sized (ascii " \x7d") (by decide)
  have sized := List.Forall₂.cons
    (@snprintf_sized (ascii "\x7b \"type\": \"Feature\", ") (by decide))
    (.cons (emGeojsonSnprintGeometry_prints gp).sized
      (List.rel_append (propertiesPieces_sized properties)
        (.cons closing .nil)))
  have sum : ((ascii "\x7b \"type\": \"Feature\", ").length ::
      gp.geometryText.length :: (propertiesSizes properties ++
        [(ascii " \x7d").length])).sum = gp.featureSize properties := by
    cases properties with
    | none => simp [propertiesSizes, EmGjpoint.featureSize, Nat.add_assoc]
    | some obj =>
        simp [propertiesSizes, EmGjpoint.featureSize, Nat.add_assoc]
  rw [emGeojsonSnprintFeature_eq, ← sum]
  exact ⟨printPieces_sized sized (List.cons_ne_nil _ _),
    printPieces_refuses sized (List.cons_ne_nil _ _)⟩

theorem emGeojsonSnprintFeature_prints (gp : EmGjpoint)
    {properties : Option EmJobj}
    (supported : ∀ obj ∈ properties, obj.Supported) :
    Prints (emGeojsonSnprintFeature ⟨.point gp, properties⟩)
      (gp.featureText (properties.map EmJobj.printed)) := by
  have closing := @snprintf_prints (ascii " \x7d") (by decide)
  have prints := List.Forall₂.cons
    (@snprintf_prints (ascii "\x7b \"type\": \"Feature\", ") (by decide))
    (.cons (emGeojsonSnprintGeometry_prints gp)
      (List.rel_append (propertiesPieces_print supported)
        (.cons closing .nil)))
  have text : (ascii "\x7b \"type\": \"Feature\", " ::
      gp.geometryText :: (propertiesTexts properties ++
        [ascii " \x7d"])).flatten =
        gp.featureText (properties.map EmJobj.printed) := by
    cases properties with
    | none => simp [propertiesTexts, EmGjpoint.featureText]
    | some obj => simp [propertiesTexts, EmGjpoint.featureText]
  rw [emGeojsonSnprintFeature_eq, ← text]
  exact printPieces_prints prints (List.cons_ne_nil _ _)

theorem length_featureText (gp : EmGjpoint) {properties : Option EmJobj}
    (supported : ∀ obj ∈ properties, obj.Supported) :
    (gp.featureText (properties.map EmJobj.printed)).length =
      gp.featureSize properties := by
  cases properties with
  | none =>
      simp [EmGjpoint.featureText, EmGjpoint.featureSize, Nat.add_assoc]
  | some obj =>
      have size := EmJobj.printed_length_eq (supported obj rfl)
      simp [EmGjpoint.featureText, EmGjpoint.featureSize, size,
        Nat.add_assoc]

/-! ## All of the text or nothing -/

/-- Objects with elements, all of which can be printed. -/
def EmJobj.Printable (obj : EmJobj) : Prop :=
  obj.elems ≠ [] ∧ obj.Supported

theorem emJsonSnprintObj_allOrNothing {obj : EmJobj}
    (printable : obj.Printable) {dst len : ℤ} (started : 0 ≤ len)
    (isInt : len ≤ intMax) :
    AllOrNothing (emJsonSnprintObj obj) obj.text dst len := by
  rw [← obj.printed_eq_text printable.1]
  apply (emJsonSnprintObj_prints printable.2).allOrNothing _
    obj.printed_noZero started isInt
  rw [EmJobj.printed_length_eq printable.2]
  exact (emJsonSnprintObj_sized obj).2

theorem emGeojsonSnprintFeature_allOrNothing (gp : EmGjpoint)
    {properties : Option EmJobj}
    (printable : ∀ obj ∈ properties, obj.Printable) {dst len : ℤ}
    (started : 0 ≤ len) (isInt : len ≤ intMax) :
    AllOrNothing (emGeojsonSnprintFeature ⟨.point gp, properties⟩)
      (gp.featureText (properties.map EmJobj.text)) dst len := by
  have supported : ∀ obj ∈ properties, obj.Supported := by
    intro obj member
    exact (printable obj member).2
  have same : properties.map EmJobj.text =
      properties.map EmJobj.printed := by
    apply Option.map_congr
    intro obj member
    exact (obj.printed_eq_text (printable obj member).1).symm
  rw [same]
  apply (emGeojsonSnprintFeature_prints gp supported).allOrNothing _
    (gp.featurePrinted_noZero properties) started isInt
  rw [length_featureText gp supported]
  exact (emGeojsonSnprintFeature_sized gp properties).2

/-- The printers of features, objects and geometries write to the buffer only
and report exactly the texts that are shorter than it. -/
theorem printers_allOrNothing {len : ℤ} (started : 0 ≤ len)
    (isInt : toInt32 len = len) (dst : ℤ) :
    (∀ (gp : EmGjpoint) (properties : Option EmJobj),
      (∀ obj ∈ properties, obj.Printable) →
      AllOrNothing (emGeojsonSnprintFeature ⟨.point gp, properties⟩)
        (gp.featureText (properties.map EmJobj.text)) dst len) ∧
    (∀ obj : EmJobj, obj.Printable →
      AllOrNothing (emJsonSnprintObj obj) obj.text dst len) ∧
    ∀ gp : EmGjpoint,
      AllOrNothing (emGeojsonSnprintGeometry (.point gp))
        gp.geometryText dst len := by
  have upper := le_intMax_of_toInt32 isInt
  refine ⟨?_, ?_, ?_⟩
  · intro gp properties printable
    exact emGeojsonSnprintFeature_allOrNothing gp printable started upper
  · intro obj printable
    exact emJsonSnprintObj_allOrNothing printable started upper
  · intro gp
    exact (emGeojsonSnprintGeometry_prints gp).allOrNothing
      (emGeojsonSnprintGeometry_refuses gp) gp.geometryText_noZero
      started upper

theorem feature_in_256 :
    AllOrNothing
      (emGeojsonSnprintFeature
        ⟨.point ⟨.finite false 5 (-1) (by decide) (by decide),
          .finite true 35 0 (by decide) (by decide)⟩,
          some ⟨[⟨.ofList (ascii "aa") (by decide), .integer 10⟩]⟩⟩)
      (EmGjpoint.featureText
        ⟨.finite false 5 (-1) (by decide) (by decide),
          .finite true 35 0 (by decide) (by decide)⟩
        (some
          (EmJobj.text ⟨[⟨.ofList (ascii "aa") (by decide), .integer 10⟩]⟩)))
      0 256 :=
  (@printers_allOrNothing 256 (by decide) (by decide) 0).1 _
    (some ⟨[⟨.ofList (ascii "aa") (by decide), .integer 10⟩]⟩) (by
      rintro obj member
      obtain rfl := Option.some.inj member
      exact ⟨List.cons_ne_nil _ _, by decide⟩)

end EmbeddedMiddle
