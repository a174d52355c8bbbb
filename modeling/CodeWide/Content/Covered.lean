import CodeWide.Content.Bounded

/-!
# What a bounded projection gives back

Every entry of a value is projected under a pointer of its own, so what one entry cuts is out of
the way of the others.
-/

namespace CodeWide.Content

open Lib Lib.Pointer List Json
open Option (bind_some getD_none getD_some map_some or_none)

variable {codec : Codec} {read : Json → Option Json}

/-! ## One pointer does not touch the others -/

variable {pointer : String}

lemma pointerOrRoot_of_ne (h : pointer ≠ "") : pointerOrRoot pointer = pointer := if_neg h

variable (cuts : Cuts)

lemma lookup_put_self (pointer : String) (reference value : Json) :
    lookupField pointer (cuts.put pointer reference value).fields = some reference := by
  unfold Cuts.put
  rw [lookupField_insertField, if_pos rfl]

lemma lookup_put_of_ne {cuts : Cuts} {pointer other : String} (reference value : Json)
    (h : other ≠ pointer) :
    lookupField other (cuts.put pointer reference value).fields =
      lookupField other cuts.fields := by
  unfold Cuts.put
  rw [lookupField_insertField, if_neg h]

lemma lookup_put_outside {cuts : Cuts} {pointer other : String} (reference value : Json)
    (hptr : pointer ≠ "") (h : ¬ Within pointer other) :
    lookupField other (cuts.put (pointerOrRoot pointer) reference value).fields =
      lookupField other cuts.fields := by
  rw [pointerOrRoot_of_ne hptr]
  exact lookup_put_of_ne reference value (fun heq => h (heq ▸ Within.refl _))

mutual

theorem lookup_projectValue {pointer other : String} (hptr : pointer ≠ "")
    (h : ¬ Within pointer other) (depth : Nat) (cuts : Cuts) :
    (value : Json) → lookupField other (projectValue codec pointer cuts depth value).2.fields =
      lookupField other cuts.fields
  | .str value => by
    unfold projectValue
    split
    · rfl
    · exact lookup_put_outside _ _ hptr h
  | .arr values => by
    have hitems : ∀ index : Nat, 0 ≤ index → ¬ Within (child pointer index.repr) other :=
      fun index _ hwin => h hwin.of_child
    unfold projectValue
    split
    · simp only
      rw [lookup_projectItems hitems]
      split
      · exact lookup_put_outside _ _ hptr h
      · rfl
    · exact lookup_put_outside _ _ hptr h
  | .obj fields => by
    unfold projectValue
    split
    · exact lookup_projectFields _ _ _ fields (fun _ _ hwin => h hwin.of_child)
    · exact lookup_put_outside _ _ hptr h
  | .null => by rw [projectValue]
  | .bool b => by rw [projectValue]
  | .int n => by rw [projectValue]
  | .float bits => by rw [projectValue]

theorem lookup_projectItems {pointer other : String} {index : Nat}
    (h : ∀ i : Nat, index ≤ i → ¬ Within (child pointer i.repr) other) (depth : Nat) (cuts : Cuts) :
    (items : List Json) →
      lookupField other (projectItems codec pointer cuts depth index items).2.fields =
        lookupField other cuts.fields
  | [] => by rw [projectItems]
  | value :: rest => by
    unfold projectItems
    split
    · rfl
    · simp only
      rw [lookup_projectItems (fun i hi => h i (Nat.le_of_succ_le hi)),
        lookup_projectValue (child_ne_empty _ _) (h index le_rfl)]

theorem lookup_projectFields {pointer other : String} (depth index : Nat) (cuts : Cuts) :
    (fields : List (String × Json)) →
      (∀ field ∈ fields, ¬ Within (child pointer (escape field.1)) other) →
      lookupField other (projectFields codec pointer cuts depth index fields).2.fields =
        lookupField other cuts.fields
  | [], _ => by rw [projectFields]
  | (key, value) :: rest, h => by
    unfold projectFields
    split
    · rfl
    · simp only
      rw [lookup_projectFields _ _ _ rest (fun field hmem => h field (mem_cons_of_mem _ hmem)),
        lookup_projectValue (child_ne_empty _ _) (h _ mem_cons_self)]

end

/-! ## What is stored stays stored -/

/-- Nothing that was stored is lost, and the references stay in order. -/
def Cuts.Grows (cuts later : Cuts) : Prop :=
  cuts.stored ⊆ later.stored ∧ ((obj cuts.fields).Ascending → (obj later.fields).Ascending)

lemma Cuts.Grows.refl : cuts.Grows cuts := ⟨List.Subset.refl _, id⟩

lemma Cuts.Grows.trans {cuts later last : Cuts} (h : cuts.Grows later) (h' : later.Grows last) :
    cuts.Grows last := ⟨List.Subset.trans h.1 h'.1, h'.2 ∘ h.2⟩

lemma Cuts.grows_put (pointer : String) (reference value : Json) :
    cuts.Grows (cuts.put pointer reference value) :=
  ⟨subset_append_left _ _, fun h => h.insert pointer reference⟩

mutual

theorem grows_projectValue (pointer : String) (cuts : Cuts) (depth : Nat) :
    (value : Json) → cuts.Grows (projectValue codec pointer cuts depth value).2
  | .str value => by
    unfold projectValue
    split
    · exact Cuts.Grows.refl cuts
    · exact cuts.grows_put _ _ _
  | .arr values => by
    unfold projectValue
    split
    · simp only
      refine Cuts.Grows.trans ?_ (grows_projectItems pointer _ _ _ values)
      split
      · exact cuts.grows_put _ _ _
      · exact Cuts.Grows.refl cuts
    · exact cuts.grows_put _ _ _
  | .obj fields => by
    unfold projectValue
    split
    · exact grows_projectFields pointer _ _ _ fields
    · exact cuts.grows_put _ _ _
  | .null => by rw [projectValue]; exact Cuts.Grows.refl cuts
  | .bool b => by rw [projectValue]; exact Cuts.Grows.refl cuts
  | .int n => by rw [projectValue]; exact Cuts.Grows.refl cuts
  | .float bits => by rw [projectValue]; exact Cuts.Grows.refl cuts

theorem grows_projectItems (pointer : String) (cuts : Cuts) (depth index : Nat) :
    (items : List Json) → cuts.Grows (projectItems codec pointer cuts depth index items).2
  | [] => by rw [projectItems]; exact Cuts.Grows.refl cuts
  | value :: rest => by
    unfold projectItems
    split
    · exact Cuts.Grows.refl cuts
    · exact (grows_projectValue _ cuts depth value).trans (grows_projectItems _ _ _ _ rest)

theorem grows_projectFields (pointer : String) (cuts : Cuts) (depth index : Nat) :
    (fields : List (String × Json)) →
      cuts.Grows (projectFields codec pointer cuts depth index fields).2
  | [] => by rw [projectFields]; exact Cuts.Grows.refl cuts
  | (key, value) :: rest => by
    unfold projectFields
    split
    · exact Cuts.Grows.refl cuts
    · exact (grows_projectValue _ cuts depth value).trans (grows_projectFields _ _ _ _ rest)

end

/-! ## Filling in what was cut -/

def Fresh (cuts : Cuts) (pointer : String) : Prop :=
  ∀ other, Within pointer other → lookupField other cuts.fields = none

/-- The content for the pointer and those below it is what the references stand for. -/
def Answers (read : Json → Option Json) (cuts : Cuts) (content : String → Option Json)
    (pointer : String) : Prop :=
  ∀ other, Within pointer other → content other = listedContent read cuts.fields other

lemma Reads.of_grows {cuts later : Cuts} (h : Reads read later.stored) (hgrows : cuts.Grows later) :
    Reads read cuts.stored := fun entry hentry => h entry (hgrows.1 hentry)

variable {content : String → Option Json}

lemma fresh_child {cuts : Cuts} (h : Fresh cuts pointer) (token : String) :
    Fresh cuts (child pointer token) := fun other hother => h other hother.of_child

lemma content_put {cuts later : Cuts} {reference value : Json}
    (hptr : pointer ≠ "") (hread : Reads read later.stored)
    (hgrows : (cuts.put (pointerOrRoot pointer) reference value).Grows later)
    (hlater : lookupField pointer later.fields =
      lookupField pointer (cuts.put (pointerOrRoot pointer) reference value).fields)
    (h : Answers read later content pointer) : content pointer = some value := by
  rw [h pointer (Within.refl pointer), listedContent, hlater, pointerOrRoot_of_ne hptr,
    lookup_put_self]
  exact hread _ (hgrows.1 (mem_append_right _ mem_cons_self))

lemma content_fresh {cuts later : Cuts} (hfresh : Fresh cuts pointer)
    (hlater : lookupField pointer later.fields = lookupField pointer cuts.fields)
    (h : Answers read later content pointer) : content pointer = none := by
  rw [h pointer (Within.refl pointer), listedContent, hlater, hfresh _ (Within.refl pointer)]
  rfl

lemma not_within_index {pointer other : String} {index i : Nat} (hlt : index < i)
    (h : Within (child pointer index.repr) other) : ¬ Within (child pointer i.repr) other :=
  fun h' => Nat.ne_of_lt hlt (Nat.repr_inj.mp (token_unique (token_repr index) (token_repr i) h h'))

lemma not_within_key {pointer other key key' : String} (hne : key ≠ key')
    (h : Within (child pointer (escape key)) other) :
    ¬ Within (child pointer (escape key')) other :=
  fun h' => hne (escape_inj (token_unique (token_escape key) (token_escape key') h h'))

/-- An entry of an object comes back from the references exactly if nothing in it is over the
limit. -/
def FieldBack (codec : Codec) (read : Json → Option Json) (later : Cuts) (pointer : String)
    (depth : Nat) (field projected : String × Json) : Prop :=
  projected.1 = field.1 ∧
    (∃ cuts, projected.2 =
      (projectValue codec (child pointer (escape field.1)) cuts depth field.2).1) ∧
    ∀ content, Answers read later content (child pointer (escape field.1)) →
      (fill content (child pointer (escape field.1)) projected.2 = field.2 ↔
        narrow depth field.2 = true)

variable {fields : List (String × Json)} {depth : Nat}

lemma fillFields_eq_map (content : String → Option Json) (pointer : String)
    (fields : List (String × Json)) : fillFields content pointer fields =
      fields.map fun field => (field.1, fill content (child pointer (escape field.1)) field.2) := by
  induction fields with
  | nil => rfl
  | cons field rest ih => rw [fillFields, ih, map_cons]

variable {later : Cuts}

/-- An object comes back from the references exactly if all its entries do and it is not over
the limit. -/
lemma fillFields_back {content : String → Option Json} {fields projected : List (String × Json)}
    (h : List.Forall₂ (FieldBack codec read later pointer depth) (fields.take (maxCollectionEntries - 0))
      projected)
    (hans : ∀ field ∈ fields, Answers read later content (child pointer (escape field.1))) :
    fillFields content pointer projected = fields ↔
      fields.length ≤ maxCollectionEntries ∧ narrowFields depth fields = true := by
  rw [Nat.sub_zero] at h
  have hfilled : ∀ kept : List (String × Json),
      List.Forall₂ (FieldBack codec read later pointer depth) kept projected → kept ⊆ fields →
      (fillFields content pointer projected = kept ↔ narrowFields depth kept = true) := by
    intro kept hkept hsub
    clear h
    induction hkept with
    | nil => exact iff_of_true rfl rfl
    | @cons field entry kept projected hfield _ ih =>
    obtain ⟨hmem, hrest⟩ := cons_subset.mp hsub
    obtain ⟨hkey, -, hback⟩ := hfield
    rw [fillFields, cons.injEq, ih hrest, narrowFields, Bool.and_eq_true, Prod.ext_iff, hkey]
    exact and_congr_left' ((and_iff_right rfl).trans (hback content (hans field hmem)))
  have hkept := hfilled _ h (take_subset _ _)
  constructor
  · intro heq
    have hlen : fields.length ≤ maxCollectionEntries := by
      rw [← heq, fillFields_eq_map, length_map, ← h.length_eq]
      exact length_take_le _ _
    rw [take_of_length_le hlen] at hkept
    exact ⟨hlen, hkept.mp heq⟩
  · rintro ⟨hlen, hnarr⟩
    rw [take_of_length_le hlen] at hkept
    exact hkept.mpr hnarr

mutual

/-- A value comes back from the references exactly if nothing in it is over the limit. -/
theorem fill_projectValue {later : Cuts} {content : String → Option Json} {pointer : String}
    (hptr : pointer ≠ "") (depth : Nat) {cuts : Cuts} (hfresh : Fresh cuts pointer) :
    (value : Json) → Ordered value →
    later = (projectValue codec pointer cuts depth value).2 → Reads read later.stored →
    Answers read later content pointer →
    (fill content pointer (projectValue codec pointer cuts depth value).1 = value ↔
      narrow depth value = true)
  | .str value, _, hlater, hread, hans => by
    subst hlater
    unfold projectValue at hread hans ⊢
    split
    · next hshort =>
      simp only [if_pos hshort] at hans
      rw [fill, content_fresh hfresh rfl hans]
      exact iff_of_true rfl rfl
    next hlong =>
    simp only [if_neg hlong] at hread hans
    rw [fill, content_put hptr hread (Cuts.Grows.refl _) rfl hans]
    exact iff_of_true rfl rfl
  | .arr values, hord, hlater, hread, hans => by
    subst hlater
    unfold projectValue at hread hans ⊢
    split
    · next hdepth =>
      simp only [if_pos hdepth] at hread hans
      simp only
      -- only the cut of the array itself is listed for its own pointer
      have hitems : ∀ (listed : Cuts), lookupField pointer
          (projectItems codec pointer listed (depth + 1) 0 values).2.fields =
            lookupField pointer listed.fields :=
        fun listed => lookup_projectItems (fun i _ => not_within_child pointer i.repr) _ _ values
      split
      · next hwide =>
        rw [if_pos hwide] at hread hans
        rw [fill, content_put hptr hread (grows_projectItems _ _ _ _ values) (hitems _) hans]
        refine iff_of_false (fun heq => ?_) (fun hnarr => ?_)
        · have hlen := congrArg length (arr.inj heq)
          omega
        have hfits : values.length ≤ maxCollectionEntries := by
          unfold narrow at hnarr
          simp only [hdepth, decide_true, Bool.not_true, Bool.false_or, Bool.and_eq_true,
            decide_eq_true_eq] at hnarr
          exact hnarr.1
        rw [take_of_length_le hfits] at hwide
        exact Nat.lt_irrefl _ hwide
      next hfits =>
      rw [if_neg hfits] at hread hans
      rw [fill, content_fresh hfresh (hitems cuts) hans]
      have hback := fill_projectItems (depth + 1) (Nat.zero_le maxCollectionEntries)
        (fun i _ => fresh_child hfresh i.repr) values hord rfl hread
        (fun i _ other hother => hans other hother.of_child)
      rw [getD_none, arr.injEq, hback]
      unfold narrow
      simp [hdepth]
    next hdeep =>
    simp only [if_neg hdeep] at hread hans
    rw [fill, content_put hptr hread (Cuts.Grows.refl _) rfl hans]
    refine iff_of_true rfl ?_
    unfold narrow
    simp [hdeep]
  | .obj fields, hord, hlater, hread, hans => by
    subst hlater
    unfold projectValue at hread hans ⊢
    split
    · next hdepth =>
      simp only [if_pos hdepth] at hread hans
      simp only
      have hown : lookupField pointer
          (projectFields codec pointer cuts (depth + 1) 0 fields).2.fields =
            lookupField pointer cuts.fields :=
        lookup_projectFields _ _ _ fields (fun field _ => not_within_child pointer _)
      rw [fill, content_fresh hfresh hown hans, getD_none, obj.injEq]
      have hback := fill_projectFields (depth + 1) 0 fields
        (fun field _ => fresh_child hfresh _) hord.1 hord.2 rfl hread
      rw [fillFields_back hback (fun field _ other hother => hans other hother.of_child)]
      unfold narrow
      simp [hdepth]
    next hdeep =>
    simp only [if_neg hdeep] at hread hans
    rw [fill, content_put hptr hread (Cuts.Grows.refl _) rfl hans]
    refine iff_of_true rfl ?_
    unfold narrow
    simp [hdeep]
  | .null, _, hlater, _, hans => by
    subst hlater
    unfold projectValue
    rw [fill, content_fresh hfresh rfl hans]
    exact iff_of_true rfl rfl
  | .bool b, _, hlater, _, hans => by
    subst hlater
    unfold projectValue
    rw [fill, content_fresh hfresh rfl hans]
    exact iff_of_true rfl rfl
  | .int n, _, hlater, _, hans => by
    subst hlater
    unfold projectValue
    rw [fill, content_fresh hfresh rfl hans]
    exact iff_of_true rfl rfl
  | .float bits, _, hlater, _, hans => by
    subst hlater
    unfold projectValue
    rw [fill, content_fresh hfresh rfl hans]
    exact iff_of_true rfl rfl

theorem fill_projectItems {later : Cuts} {content : String → Option Json} {pointer : String}
    (depth : Nat) {index : Nat} (hindex : index ≤ maxCollectionEntries) {cuts : Cuts}
    (hfresh : ∀ i : Nat, index ≤ i → Fresh cuts (child pointer i.repr)) :
    (items : List Json) → OrderedItems items →
    later = (projectItems codec pointer cuts depth index items).2 → Reads read later.stored →
    (∀ i : Nat, index ≤ i → Answers read later content (child pointer i.repr)) →
    (fillItems content pointer index (projectItems codec pointer cuts depth index items).1 = items ↔
      index + items.length ≤ maxCollectionEntries ∧ narrowItems depth items = true)
  | [], _, _, _, _ => by
    rw [projectItems]
    exact iff_of_true rfl ⟨hindex, rfl⟩
  | value :: rest, hord, hlater, hread, hans => by
    subst hlater
    unfold projectItems at hread hans ⊢
    split
    · next hfull =>
      refine iff_of_false (fun heq => cons_ne_nil _ _ heq.symm) (fun h => ?_)
      have hlen := h.1
      rw [length_cons] at hlen
      omega
    next hroom =>
    simp only [if_neg hroom] at hread hans
    simp only
    have hrest : (projectValue codec (child pointer index.repr) cuts depth value).2.Grows
        (projectItems codec pointer (projectValue codec (child pointer index.repr) cuts depth
          value).2 depth (index + 1) rest).2 := grows_projectItems pointer _ depth (index + 1) rest
    have hansw : Answers read (projectValue codec (child pointer index.repr) cuts depth value).2
        content (child pointer index.repr) := fun other hother => by
      rw [hans index le_rfl other hother, listedContent, listedContent,
        lookup_projectItems (fun i hi => not_within_index (Nat.lt_of_succ_le hi) hother)]
    have hvalue := fill_projectValue (child_ne_empty pointer index.repr) depth
      (hfresh index le_rfl) value hord.1 rfl (hread.of_grows hrest) hansw
    have hoth := fill_projectItems depth (Nat.lt_of_not_le hroom) (fun i hi other hother => by
        rw [lookup_projectValue (child_ne_empty _ _)
          (fun h => not_within_index (Nat.lt_of_succ_le hi) h hother)]
        exact hfresh i (Nat.le_of_succ_le hi) other hother) rest hord.2 rfl hread
      (fun i hi => hans i (Nat.le_of_succ_le hi))
    rw [fillItems, cons.injEq, hvalue, hoth, narrowItems, length_cons, Bool.and_eq_true]
    constructor
    · rintro ⟨hhead, hlen, htail⟩
      exact ⟨by omega, hhead, htail⟩
    · rintro ⟨hlen, hhead, htail⟩
      exact ⟨hhead, by omega, htail⟩

theorem fill_projectFields {later : Cuts} {pointer : String} (depth index : Nat) {cuts : Cuts} :
    (fields : List (String × Json)) →
    (∀ field ∈ fields, Fresh cuts (child pointer (escape field.1))) →
    (obj fields).Ascending → OrderedFields fields →
    later = (projectFields codec pointer cuts depth index fields).2 → Reads read later.stored →
    List.Forall₂ (FieldBack codec read later pointer depth)
      (fields.take (maxCollectionEntries - index))
      (projectFields codec pointer cuts depth index fields).1
  | [], _, _, _, _, _ => by
    rw [take_nil, projectFields]
    exact List.Forall₂.nil
  | (key, value) :: rest, hfresh, hasc, hord, hlater, hread => by
    subst hlater
    unfold projectFields at hread ⊢
    split
    · next hfull =>
      rw [Nat.sub_eq_zero_of_le hfull, take_zero]
      exact List.Forall₂.nil
    next hroom =>
    simp only [if_neg hroom] at hread
    simp only
    have hrest : (projectValue codec (child pointer (escape key)) cuts depth value).2.Grows
        (projectFields codec pointer (projectValue codec (child pointer (escape key)) cuts depth
          value).2 depth (index + 1) rest).2 := grows_projectFields pointer _ depth (index + 1) rest
    have hkeys : ∀ field ∈ rest, key ≠ field.1 := fun field hmem =>
      ne_of_lt ((pairwise_cons.mp hasc).1 field hmem)
    have htake : maxCollectionEntries - index = maxCollectionEntries - (index + 1) + 1 := by omega
    rw [htake, take_succ_cons]
    refine List.Forall₂.cons ⟨rfl, ⟨cuts, rfl⟩, fun content hans => ?_⟩ ?_
    · exact fill_projectValue (child_ne_empty pointer _) depth (hfresh _ mem_cons_self) value
        hord.1 rfl (hread.of_grows hrest) (fun other hother => by
          rw [hans other hother, listedContent, listedContent, lookup_projectFields _ _ _ rest
            (fun field hmem => not_within_key (hkeys field hmem) hother)])
    refine fill_projectFields depth (index + 1) rest (fun field hmem other hother => ?_)
      (pairwise_cons.mp hasc).2 hord.2 rfl hread
    rw [lookup_projectValue (child_ne_empty _ _)
      (fun h => not_within_key (hkeys field hmem) h hother)]
    exact hfresh field (mem_cons_of_mem _ hmem) other hother

end

/-! ## The references of a projection -/

variable {key : String}

variable {added : List (String × Json)}

lemma eraseField_of_ne (h : ∀ field ∈ fields, field.1 ≠ key) : eraseField key fields = fields :=
  filter_eq_self.mpr (fun field hmem => decide_eq_true (h field hmem))

lemma eraseField_insertField (key : String) (value : Json) (fields : List (String × Json)) :
    eraseField key (insertField key value fields) = eraseField key fields := by
  unfold eraseField
  induction fields with
  | nil => simp [insertField]
  | cons field rest ih =>
  rw [insertField]
  split
  · next heq => simp [heq]
  · split
    · simp
    · rw [filter_cons, filter_cons, ih]

abbrev contentKey : String := "codewideContent"

lemma attach_eq (object fields : List (String × Json)) (whole : Option Json)
    (h : ¬ (fields = [] ∧ whole = none)) :
    ∃ metadata, attachContentMetadata (.obj object) fields whole =
        .obj (insertField contentKey (.obj metadata) (eraseField contentKey object)) ∧
      (∀ reference, whole = some reference → lookupField "whole" metadata = some reference) ∧
      (lookupField contentKey object = none → whole = none → lookupField "whole" metadata = none ∧
          lookupField "fields" metadata = some (.obj (extend [] fields))) := by
  unfold attachContentMetadata
  simp only [if_neg h]
  refine ⟨_, rfl, ?_, ?_⟩
  · rintro reference rfl
    simp only
    rw [lookupField_insertField, if_pos rfl]
  rintro hnone rfl
  rw [hnone]
  refine ⟨?_, ?_⟩
  · simp only
    rw [lookupField_insertField, if_neg (by decide), lookupField_insertField, if_neg (by decide)]
    rfl
  · simp only
    rw [lookupField_insertField, if_pos rfl]
    rfl

lemma get?_contentKey (metadata : Json) (fields : List (String × Json)) :
    (obj (insertField contentKey metadata fields)).get? "codewideContent" = some metadata := by
  unfold get?
  simp only
  rw [lookupField_insertField, if_pos rfl]

lemma projectValue_root (fields : List (String × Json)) :
    projectValue codec "" Cuts.empty 0 (.obj fields) =
      (.obj (projectFields codec "" Cuts.empty 1 0 fields).1,
        (projectFields codec "" Cuts.empty 1 0 fields).2) := by
  rw [projectValue, if_pos (by decide)]

variable {value : Json}

variable (g : String → Json → Json)

variable {output : Json}

variable {item : Json}

lemma minimalItem_obj (item : Json) : ∃ fields, minimalItem item = .obj fields := by
  unfold minimalItem
  refine foldlRecOn (motive := fun minimal : Json => ∃ fields, minimal = .obj fields) _ _ ⟨_, rfl⟩ ?_
  rintro _ ⟨fields, rfl⟩ key -
  split
  · exact ⟨_, rfl⟩
  · exact ⟨fields, rfl⟩

def okDigest : String := "2689367b205c16ce32ed4200942b8b8b1e262dfc70d9bc9fbc77c49699a4f1df"

def okCodec : Codec where
  digest := fun _ => okDigest
  floatLen := fun _ => 3

end CodeWide.Content
