import CodeWide.Content.Covered
import CodeWide.Lib.Text

/-!
# The budget of a projected item

A projection that is too long keeps its first scalar fields, with long texts cut, and nothing looks
at their length again.
-/

namespace CodeWide.Content

open Lib List Json Text

variable {codec : Codec} {fields : List (String × Json)}

def Codec.metadataLen (codec : Codec) (projected : Json) : Nat :=
  match projected.get? "codewideContent" with
  | some metadata => encodedStrLen contentKey + 1 + encodedLen codec.floatLen metadata + 1
  | none => 0

def Codec.WithinBudget (codec : Codec) (projected : Json) : Prop :=
  encodedLen codec.floatLen projected ≤ maxProjectedItemBytes + codec.metadataLen projected

def shownScalar : Json → Json
  | .str value =>
    if value.utf8ByteSize ≤ maxInlineTextBytes then .str value
    else .str (boundedPreview value maxInlineTextBytes)
  | value => value

/-- What an object over the budget is left with, `room` fields of it being read. -/
def shownScalars (room : Nat) (fields : List (String × Json)) : List (String × Json) :=
  ((fields.take room).filter fun field => isScalar field.2).map
    fun field => (field.1, shownScalar field.2)

def Codec.ScalarsFit (codec : Codec) (fields : List (String × Json)) : Prop :=
  encodedLenFields codec.floatLen
    (eraseField contentKey (shownScalars maxCollectionEntries fields)) + 1 ≤ maxProjectedItemBytes

/-- The item fits as it is first projected, or the scalar fields it is last left with do. -/
def Codec.ItemFits (codec : Codec) (item : Json) : Prop :=
  let hidden := (externalized codec item).1
  encodedLen codec.floatLen (projectBounded codec hidden maxProjectedItemBytes).1 ≤
      maxProjectedItemBytes ∨
    codec.ScalarsFit (minimalItem hidden).fields

/-! ## The length of an encoding -/

lemma encodedLenFields_sublist {floatLen : UInt64 → Nat} {l m : List (String × Json)}
    (h : l.Sublist m) : encodedLenFields floatLen l ≤ encodedLenFields floatLen m := by
  induction h with
  | slnil => rfl
  | cons field _ ih =>
    simp only [encodedLenFields]
    omega
  | cons_cons field _ ih =>
    simp only [encodedLenFields]
    omega

lemma encodedLenFields_insertField {floatLen : UInt64 → Nat} {key : String} (value : Json)
    (h : ∀ field ∈ fields, field.1 ≠ key) :
    encodedLenFields floatLen (insertField key value fields) =
      encodedStrLen key + 1 + encodedLen floatLen value + 1 + encodedLenFields floatLen fields := by
  induction fields with
  | nil => rfl
  | cons field rest ih =>
  rw [insertField, if_neg (h field mem_cons_self).symm]
  split
  · rfl
  · simp only [encodedLenFields, ih (fun field hmem => h field (mem_cons_of_mem _ hmem))]
    omega

lemma key_ne_of_erased {key : String} : ∀ field ∈ eraseField key fields, field.1 ≠ key :=
  fun _ hmem => of_decide_eq_true (mem_filter.mp hmem).2

lemma eraseField_eraseField (key : String) :
    eraseField key (eraseField key fields) = eraseField key fields :=
  eraseField_of_ne key_ne_of_erased

lemma withinBudget_attachWhole (object : List (String × Json)) (whole : Json) :
    codec.WithinBudget (attachWhole (.obj object) whole) ↔
      encodedLenFields codec.floatLen (eraseField contentKey object) + 1 ≤
        maxProjectedItemBytes := by
  obtain ⟨metadata, heq, -⟩ := attach_eq object [] (some whole) (fun hnone => by cases hnone.2)
  unfold Codec.WithinBudget Codec.metadataLen attachWhole
  rw [heq, get?_contentKey, encodedLen, encodedLenFields_insertField _ key_ne_of_erased]
  simp only
  omega

/-! ## The scalar fields of a projection -/

lemma isScalar_projectValue (pointer : String) (cuts : Cuts) (depth : Nat) (value : Json) :
    isScalar (projectValue codec pointer cuts depth value).1 = isScalar value := by
  cases value with
  | str value | arr items | obj fields =>
    rw [projectValue]
    split <;> rfl
  | _ => rfl

lemma projectValue_scalar (pointer : String) (cuts : Cuts) (depth : Nat) {value : Json}
    (h : isScalar value = true) :
    (projectValue codec pointer cuts depth value).1 = shownScalar value := by
  cases value with
  | str value =>
    rw [projectValue, shownScalar]
    split <;> rfl
  | arr _ | obj _ => cases h
  | _ => rfl

lemma scalars_projectFields (pointer : String) (cuts : Cuts) (depth index : Nat) :
    (projectFields codec pointer cuts depth index fields).1.filter (fun field => isScalar field.2) =
      shownScalars (maxCollectionEntries - index) fields := by
  induction fields generalizing cuts index with
  | nil =>
    unfold shownScalars
    rw [projectFields, take_nil]
    rfl
  | cons field rest ih =>
  obtain ⟨key, value⟩ := field
  rw [projectFields]
  split
  · next hfull =>
    unfold shownScalars
    rw [Nat.sub_eq_zero_of_le hfull, take_zero]
    rfl
  next hroom =>
  have hstep := ih
    (projectValue codec (Pointer.child pointer (Pointer.escape key)) cuts depth value).2 (index + 1)
  unfold shownScalars at hstep ⊢
  rw [show maxCollectionEntries - index = maxCollectionEntries - (index + 1) + 1 by omega,
    take_succ_cons, filter_cons, filter_cons]
  simp only [isScalar_projectValue]
  split
  · next hscalar => rw [map_cons, hstep, projectValue_scalar _ _ _ hscalar]
  · exact hstep

lemma eraseField_scalars (fields : List (String × Json)) :
    eraseField contentKey (scalarFields (.obj fields)) =
      scalarFields (.obj (eraseField contentKey fields)) :=
  filter_comm _ _ _

lemma projectInline_scalars (fields : List (String × Json)) :
    ∃ object, (projectInline codec (.obj fields)).1 = .obj object ∧
      eraseField contentKey (scalarFields (.obj object)) =
        eraseField contentKey (shownScalars maxCollectionEntries fields) := by
  have hscal := @scalars_projectFields codec fields "" Cuts.empty 1 0
  unfold projectInline
  rw [projectValue_root]
  simp only
  split
  · exact ⟨_, rfl, congrArg (eraseField contentKey) hscal⟩
  · next hcuts =>
    obtain ⟨metadata, heq, -⟩ := attach_eq
      (projectFields codec "" Cuts.empty 1 0 fields).1 _ none (fun h => hcuts h.1)
    refine ⟨_, heq, ?_⟩
    rw [eraseField_scalars, eraseField_insertField, eraseField_eraseField, ← eraseField_scalars]
    exact congrArg (eraseField contentKey) hscal

lemma scalars_le {floatLen : UInt64 → Nat} (object : List (String × Json)) :
    encodedLenFields floatLen (eraseField contentKey (scalarFields (.obj object))) ≤
      encodedLenFields floatLen object :=
  encodedLenFields_sublist (filter_sublist.trans filter_sublist)

lemma scalars_of_fits
    (h : encodedLen codec.floatLen (projectBounded codec (.obj fields) maxProjectedItemBytes).1 ≤
      maxProjectedItemBytes) : codec.ScalarsFit fields := by
  obtain ⟨object, hobject, hscal⟩ := @projectInline_scalars codec fields
  rw [Codec.ScalarsFit, ← hscal]
  unfold projectBounded at h
  simp only [hobject] at h
  split at h
  · rw [encodedLen] at h
    have hle := @scalars_le codec.floatLen object
    omega
  · exact (withinBudget_attachWhole _ _).mp (Nat.le_add_right_of_le h)

lemma withinBudget_minimal (fields : List (String × Json)) (whole : Json) : codec.WithinBudget
        (attachWhole (projectBounded codec (.obj fields) maxProjectedItemBytes).1 whole) ↔
      codec.ScalarsFit fields := by
  obtain ⟨object, hobject, hscal⟩ := @projectInline_scalars codec fields
  rw [Codec.ScalarsFit, ← hscal]
  unfold projectBounded
  simp only [hobject]
  split
  · next hfits =>
    rw [encodedLen] at hfits
    have herased : encodedLenFields codec.floatLen (eraseField contentKey object) ≤
        encodedLenFields codec.floatLen object := encodedLenFields_sublist filter_sublist
    have hle := @scalars_le codec.floatLen object
    rw [withinBudget_attachWhole]
    omega
  · obtain ⟨metadata, heq, -⟩ := attach_eq (scalarFields (.obj object)) []
      (some (codec.putJson (.obj fields))) (fun hnone => by cases hnone.2)
    change codec.WithinBudget (attachWhole (attachContentMetadata
      (.obj (scalarFields (.obj object))) [] (some (codec.putJson (.obj fields)))) whole) ↔ _
    rw [heq, withinBudget_attachWhole, eraseField_insertField, eraseField_eraseField]

lemma withinBudget_projectItem (item : Json) :
    codec.WithinBudget (projectItem codec item).1 ↔ codec.ItemFits item := by
  unfold projectItem Codec.ItemFits
  simp only
  split
  · next hfits => exact ⟨fun _ => .inl hfits, fun _ => Nat.le_add_right_of_le hfits⟩
  next hover =>
  obtain ⟨minimal, hminimal⟩ := minimalItem_obj (externalized codec item).1
  rw [or_iff_right hover, hminimal]
  exact withinBudget_minimal minimal _

/-! ## Previews -/

def previewMarker (value : String) : String :=
  "\n… [" ++ toString value.utf8ByteSize ++ " bytes; full content available]"

lemma utf8ByteSize_ofList (l : List Char) : (String.ofList l).utf8ByteSize = utf8Len l := by
  induction l with
  | nil => rfl
  | cons c rest ih =>
  rw [String.ofList_cons, String.utf8ByteSize_append, String.utf8ByteSize_singleton, ih,
    utf8Len_cons]

lemma utf8Len_reverse (l : List Char) : utf8Len l.reverse = utf8Len l := by
  unfold utf8Len
  rw [map_reverse, sum_reverse]

lemma utf8Prefix_spec (bytes : Nat) (value : List Char) :
    (∃ rest, value = utf8Prefix bytes value ++ rest) ∧
      utf8Len (utf8Prefix bytes value) ≤ bytes := by
  induction value generalizing bytes with
  | nil => exact ⟨⟨[], rfl⟩, Nat.zero_le _⟩
  | cons c rest ih =>
  rw [utf8Prefix]
  split
  · next hfits =>
    obtain ⟨⟨behind, heq⟩, hle⟩ := ih (bytes - c.utf8Size)
    refine ⟨⟨behind, congrArg (c :: ·) heq⟩, ?_⟩
    rw [utf8Len_cons]
    omega
  · exact ⟨⟨c :: rest, rfl⟩, Nat.zero_le _⟩

lemma slice_utf8Prefix (bytes : Nat) (value : List Char) :
    slice? value 0 (utf8Len (utf8Prefix bytes value)) = some (utf8Prefix bytes value) := by
  obtain ⟨⟨rest, heq⟩, -⟩ := utf8Prefix_spec bytes value
  have hslice := slice?_append [] (utf8Prefix bytes value) rest
  rwa [nil_append, ← heq, utf8Len_nil, Nat.zero_add] at hslice

lemma slice_utf8Suffix (bytes : Nat) (value : List Char) :
    ∃ start, slice? value start (utf8Len value) = some (utf8Suffix bytes value) := by
  obtain ⟨⟨rest, heq⟩, -⟩ := utf8Prefix_spec bytes value.reverse
  have hsplit : value = rest.reverse ++ utf8Suffix bytes value := by
    rw [utf8Suffix, ← reverse_append, ← heq, reverse_reverse]
  have hslice := slice?_append rest.reverse (utf8Suffix bytes value) []
  rw [append_nil, ← hsplit, ← utf8Len_append, ← hsplit] at hslice
  exact ⟨_, hslice⟩

lemma boundedPreview_eq (value : String) (budget : Nat) : boundedPreview value budget =
      String.ofList (utf8Prefix ((budget - (previewMarker value).utf8ByteSize) * 3 / 4)
        value.toList) ++ previewMarker value ++
      String.ofList (utf8Suffix ((budget - (previewMarker value).utf8ByteSize) / 4) value.toList) :=
  rfl

lemma boundedPreview_le_iff (value : String) (budget : Nat) :
    (boundedPreview value budget).utf8ByteSize ≤ budget ↔
      (previewMarker value).utf8ByteSize ≤ budget := by
  have hhead := (utf8Prefix_spec
    ((budget - (previewMarker value).utf8ByteSize) * 3 / 4) value.toList).2
  have htail := (utf8Prefix_spec
    ((budget - (previewMarker value).utf8ByteSize) / 4) value.toList.reverse).2
  rw [boundedPreview_eq, String.utf8ByteSize_append, String.utf8ByteSize_append,
    utf8ByteSize_ofList, utf8ByteSize_ofList, utf8Suffix, utf8Len_reverse]
  omega

/-- An item keeps its budget exactly if it, or its scalar fields, fit. -/
theorem projected_budget_iff (codec : Codec) :
    (∀ item, codec.WithinBudget (projectItem codec item).1 ↔ codec.ItemFits item) ∧
      ∀ value budget,
        ((boundedPreview value budget).utf8ByteSize ≤ budget ↔
          (previewMarker value).utf8ByteSize ≤ budget) ∧
        ∃ stop start head tail, slice? value.toList 0 stop = some head ∧
          slice? value.toList start (utf8Len value.toList) = some tail ∧
          boundedPreview value budget =
            String.ofList head ++ previewMarker value ++ String.ofList tail := by
  refine ⟨withinBudget_projectItem, fun value budget => ⟨boundedPreview_le_iff value budget, ?_⟩⟩
  obtain ⟨start, htail⟩ := slice_utf8Suffix
    ((budget - (previewMarker value).utf8ByteSize) / 4) value.toList
  exact ⟨_, start, _, _, slice_utf8Prefix _ value.toList, htail, boundedPreview_eq value budget⟩

lemma long_text_exceeds {text : String} (hinline : text.utf8ByteSize ≤ maxInlineTextBytes)
    (hlong : maxProjectedItemBytes < encodedStrLen text) :
    ¬ codec.WithinBudget (projectItem codec (.obj [("text", .str text)])).1 := by
  intro hwin
  have hscal : codec.ScalarsFit [("text", .str text)] := by
    rcases (withinBudget_projectItem _).mp hwin with hfirst | hlast
    · exact scalars_of_fits hfirst
    · exact hlast
  change encodedLenFields codec.floatLen [("text", shownScalar (.str text))] + 1 ≤ _ at hscal
  rw [shownScalar, if_pos hinline] at hscal
  simp only [encodedLenFields, encodedLen] at hscal
  omega

def newlines (n : Nat) : String := String.ofList (replicate n '\n')

lemma utf8ByteSize_newlines (n : Nat) : (newlines n).utf8ByteSize = n := by
  rw [newlines, utf8ByteSize_ofList, utf8Len, map_replicate, sum_replicate_nat]
  exact Nat.mul_one n

lemma encodedStrLen_newlines (n : Nat) : encodedStrLen (newlines n) = n * 2 + 2 := by
  unfold encodedStrLen newlines
  rw [String.toList_ofList, map_replicate, sum_replicate_nat]
  rfl

/-- A text that is short enough to stand inline is twice as long when it is encoded. -/
theorem newlines_exceed_budget :
    ¬ (okCodec.WithinBudget
        (projectItem okCodec (.obj [("text", .str (newlines maxInlineTextBytes))])).1 ∧
      (boundedPreview "" 0).utf8ByteSize ≤ 0) :=
  fun h => long_text_exceeds (le_of_eq (utf8ByteSize_newlines _))
    (by rw [encodedStrLen_newlines]; decide) h.1

end CodeWide.Content
