import CodeWide.Messages.RemoteInputs
import Mathlib

/-!
# User messages as shown

A text that is a file envelope becomes one input for each file and the request, the text elements
moved with it (`projectDesktopContent`).
-/

namespace CodeWide.Messages

open Lib Lib.Text List Saturating Json
open Option (bind_eq_some_iff bind_some)

def mentionedAttachmentKind (mime : String → Option String) (name : String) : String :=
  match mime name with
  | none => "file"
  | some type =>
    if "image/".toList.isPrefixOf type.toList then "image"
    else if "audio/".toList.isPrefixOf type.toList then "audio"
    else "file"

def filePart (mime : String → Option String) (file : FileMention) : Json :=
  if mentionedAttachmentKind mime file.name = "image" then
    .ofFields [("type", .str "localImage"), ("path", .str file.path)]
  else if mentionedAttachmentKind mime file.name = "audio" then
    .ofFields [("type", .str "localAudio"), ("path", .str file.path)]
  else
    .ofFields [("type", .str "mention"), ("name", .str file.name), ("path", .str file.path)]

def rebaseTextElement (offset stop : Nat) (element : Json) : Option Json :=
  match element.get? "byteRange" with
  | none => none
  | some range =>
    match (range.get? "start").bind asU64?, (range.get? "end").bind asU64? with
    | some start, some finish =>
      if start < offset ∨ finish < start ∨ stop < finish then none
      else
        some (element.insert "byteRange"
          ((range.insert "start" (.int (start - offset : Nat))).insert "end"
            (.int (finish - offset : Nat))))
    | _, _ => none

def mentionsFiles (part : Json) : Bool :=
  match textOf part with
  | none => false
  | some text => filesHeading.isPrefixOf (trimStart text.toList)

def projectPart (mime : String → Option String) (part : Json) : List Json :=
  match (textOf part).bind (fun text => fileEnvelope text.toList) with
  | none => [part]
  | some envelope =>
    let stop := envelope.requestOffset + utf8Len envelope.request.toList
    envelope.files.map (filePart mime) ++
      [onTextElements (·.filterMap (rebaseTextElement envelope.requestOffset stop))
        (part.insert "text" (.str envelope.request))]

def projectDesktopContent (mime : String → Option String) (parts : List Json) : List Json :=
  if parts.any mentionsFiles = false then parts else parts.flatMap (projectPart mime)

variable (mime : String → Option String)

variable {part : Json}

lemma projectPart_of_not_envelope
    (h : ∀ text, textOf part = some text → fileEnvelope text.toList = none) :
    projectPart mime part = [part] := by
  unfold projectPart
  cases htext : textOf part with
  | none => rfl
  | some text => rw [bind_some, h text htext]

lemma flatMap_eq_self {α : Type} {f : α → List α} {l : List α} (h : ∀ x ∈ l, f x = [x]) :
    l.flatMap f = l := by
  induction l with
  | nil => rfl
  | cons x rest ih =>
    rw [flatMap_cons, h x mem_cons_self, ih (fun y hy => h y (mem_cons_of_mem _ hy))]
    rfl

lemma projectDesktopContent_eq (parts : List Json) :
    projectDesktopContent mime parts = parts.flatMap (projectPart mime) := by
  unfold projectDesktopContent
  split
  · rename_i hany
    refine (flatMap_eq_self (fun part hpart => ?_)).symm
    refine projectPart_of_not_envelope mime (fun text htext => ?_)
    rw [any_eq_false] at hany
    have hnot := hany part hpart
    unfold mentionsFiles at hnot
    rw [htext] at hnot
    cases henvelope : fileEnvelope text.toList with
    | none => rfl
    | some envelope =>
      exact absurd (List.isPrefixOf_iff_prefix.mpr (starts_of_fileEnvelope henvelope)) hnot
  · rfl

lemma projectDesktopContent_of_not_envelope {parts : List Json}
    (h : ∀ part ∈ parts, ∀ text, textOf part = some text → ¬ IsFileEnvelope text.toList) :
    projectDesktopContent mime parts = parts := by
  rw [projectDesktopContent_eq]
  refine flatMap_eq_self (fun part hpart => projectPart_of_not_envelope mime (fun text htext => ?_))
  have hnot := h part hpart text htext
  rw [← fileEnvelope_isSome_iff, Bool.not_eq_true] at hnot
  exact Option.isSome_eq_false_iff.mp hnot |> Option.isNone_iff_eq_none.mp

/-- The line of the file is read as the file: a name that is not blank and an absolute path. -/
structure Legible (file : FileMention) : Prop where
  named : trimChars (safeName file.name.toList) ≠ []
  absolute : isAbsolute file.path.toList = true
  oneLine : '\n' ∉ file.path.toList
  noNul : '\x00' ∉ file.path.toList
  ended : ∀ c, file.path.toList.getLast? = some c → isWhitespace c = false ∧ c ≠ '`'

instance (file : FileMention) : Decidable (Legible file) :=
  decidable_of_iff (trimChars (safeName file.name.toList) ≠ [] ∧
    isAbsolute file.path.toList = true ∧ '\n' ∉ file.path.toList ∧ '\x00' ∉ file.path.toList ∧
      ∀ c ∈ file.path.toList.getLast?, isWhitespace c = false ∧ c ≠ '`')
    ⟨fun h => ⟨h.1, h.2.1, h.2.2.1, h.2.2.2.1, h.2.2.2.2⟩,
      fun h => ⟨h.named, h.absolute, h.oneLine, h.noNul, h.ended⟩⟩

def namedFile (file : FileMention) : FileMention :=
  ⟨String.ofList (trimChars (safeName file.name.toList)), file.path⟩

lemma mem_safeName {name : List Char} {c : Char} (h : c ∈ safeName name) :
    c ≠ ':' ∧ (c ∈ name ∨ c = '-' ∨ c = '\'') := by
  obtain ⟨d, hd, rfl⟩ := mem_map.mp h
  obtain ⟨e, he, rfl⟩ := mem_map.mp hd
  by_cases hcolon : e = ':'
  · rw [if_pos hcolon]
    exact ⟨by decide, .inr (.inl (by decide))⟩
  rw [if_neg hcolon]
  by_cases htick : e = '`'
  · rw [if_pos htick]
    exact ⟨by decide, .inr (.inr rfl)⟩
  · rw [if_neg htick]
    exact ⟨hcolon, .inl he⟩

variable {file : FileMention}

section

variable (h : Legible file)
include h

lemma Legible.path_eq : ∃ rest, file.path.toList = '/' :: rest := by
  have habsolute := h.absolute
  unfold isAbsolute at habsolute
  cases hpath : file.path.toList with
  | nil =>
    rw [hpath] at habsolute
    cases habsolute
  | cons c rest =>
  rw [hpath, head?_cons, beq_iff_eq] at habsolute
  rw [Option.some.inj habsolute]
  exact ⟨rest, rfl⟩

lemma Legible.trim_path :
    trimMatches '`' (trimChars (file.path.toList ++ ['\n'])) = file.path.toList := by
  obtain ⟨rest, hpath⟩ := h.path_eq
  have hended := h.ended
  rw [trimChars_append_of_blank _ newline_blank, trimChars_eq]
  rw [hpath] at hended ⊢
  have hspace : trimEnd (trimStart ('/' :: rest)) = '/' :: rest :=
    rdropWhile_dropWhile_of_ends (by decide) (fun d hd => (hended d hd).1)
  rw [hspace]
  exact rdropWhile_dropWhile_of_ends (by decide)
    (fun d hd => beq_eq_false_iff_ne.mpr (hended d hd).2)

lemma Legible.fileMention_line : fileMention (fileLine file ++ ['\n']) = some (namedFile file) := by
  have hcolon : ':' ∉ safeName file.name.toList := fun hmem => (mem_safeName hmem).1 rfl
  have hentry : (fileLine file ++ ['\n']).drop 3 =
      safeName file.name.toList ++ (':' :: [' '] ++ (file.path.toList ++ ['\n'])) := by
    unfold fileLine
    simp
  have hstart : "## ".toList.isPrefixOf (fileLine file ++ ['\n']) = true := by
    rw [List.isPrefixOf_iff_prefix]
    unfold fileLine
    simp only [append_assoc]
    exact prefix_append _ _
  unfold fileMention
  rw [if_pos hstart, hentry]
  change (splitOnce (':' :: [' ']) _).bind _ = _
  rw [splitOnce_of_not_mem hcolon, bind_some]
  simp only
  rw [h.trim_path, if_pos ⟨h.named, h.noNul, h.absolute⟩, String.ofList_toList]
  rfl

lemma Legible.line_not_request : trimEnd (fileLine file ++ ['\n']) ∉ requestHeadings := by
  obtain ⟨rest, hpath⟩ := h.path_eq
  have hlast : trimEnd (fileLine file) = fileLine file := by
    refine rdropWhile_eq_self_iff.mpr (fun hne => ?_)
    have hend := getLast?_eq_some_getLast hne
    unfold fileLine at hend
    rw [getLast?_append_of_ne_nil _ (by rw [hpath]; simp)] at hend
    unfold fileLine
    rw [(h.ended _ hend).1]
    exact Bool.false_ne_true
  have hslash : '/' ∈ fileLine file := by
    unfold fileLine
    rw [hpath]
    simp
  rw [trimEnd_append_of_blank _ newline_blank, hlast]
  intro hmem
  have hno : ∀ heading ∈ requestHeadings, '/' ∉ heading := by decide
  exact hno _ hmem hslash

lemma line_not_mem (hname : '\n' ∉ file.name.toList) : '\n' ∉ fileLine file := by
  unfold fileLine
  simp only [mem_append, not_or]
  refine ⟨⟨⟨by decide, fun hmem => ?_⟩, by decide⟩, h.oneLine⟩
  rcases (mem_safeName hmem).2 with hc | hc | hc
  · exact hname hc
  · exact absurd hc (by decide)
  · exact absurd hc (by decide)

end

def listLines (files : List FileMention) : List (List Char) :=
  files.flatMap (fun file => [fileLine file ++ ['\n'], ['\n']])

variable {files : List FileMention}

lemma fileList_append (h : files ≠ []) :
    fileList files ++ ['\n', '\n'] = (listLines files).flatten := by
  unfold fileList listLines
  induction files with
  | nil => exact absurd rfl h
  | cons file rest ih =>
  cases rest with
  | nil => simp
  | cons next rest =>
  have hrest := ih (cons_ne_nil _ _)
  rw [map_cons, map_cons, intercalate_cons_cons, append_assoc,
    append_assoc, ← map_cons, hrest, flatMap_cons, flatten_append]
  simp

lemma splitInclusive_listLines (h : ∀ file ∈ files, '\n' ∉ fileLine file) (m : List Char) :
    splitInclusive ((listLines files).flatten ++ m) = listLines files ++ splitInclusive m := by
  induction files with
  | nil => rfl
  | cons file rest ih =>
  have hrest := ih (fun f hf => h f (mem_cons_of_mem _ hf))
  have htext : (listLines (file :: rest)).flatten ++ m =
      fileLine file ++ '\n' :: ([] ++ '\n' :: ((listLines rest).flatten ++ m)) := by
    simp [listLines]
  rw [htext, splitInclusive_line (h file mem_cons_self), splitInclusive_line not_mem_nil, hrest]
  simp [listLines]

lemma fileEnvelope_wrapped (hne : files ≠ [])
    (hlegible : ∀ file ∈ files, Legible file) (hname : ∀ file ∈ files, '\n' ∉ file.name.toList)
    (authored : List Char) :
    fileEnvelope (envelopeStart files ++ authored) =
      some ⟨files.map namedFile, String.ofList (trimChars authored),
        utf8Len (envelopeStart files) + utf8Len (authored.takeWhile isWhitespace)⟩ := by
  have hstart : envelopeStart files =
      filesHeading ++ '\n' :: ([] ++ '\n' :: ((listLines files).flatten ++
        ("## My request:".toList ++ '\n' :: ['\n']))) := by
    rw [← fileList_append hne]
    unfold envelopeStart filesHeading
    simp
  have htext : envelopeStart files ++ authored =
      filesHeading ++ '\n' :: ([] ++ '\n' :: ((listLines files).flatten ++
        ("## My request:".toList ++ '\n' :: '\n' :: authored))) := by
    rw [hstart]
    simp
  have htrim : trimStart (envelopeStart files ++ authored) = envelopeStart files ++ authored := by
    rw [htext]
    exact dropWhile_cons_of_neg (by decide)
  have hlines : splitInclusive (trimStart (envelopeStart files ++ authored)) =
      (filesHeading ++ ['\n']) :: ((['\n'] :: listLines files) ++
        ("## My request:".toList ++ ['\n']) :: splitInclusive ('\n' :: authored)) := by
    rw [htrim, htext, splitInclusive_line (by decide), splitInclusive_line not_mem_nil,
      splitInclusive_listLines (fun file hfile => line_not_mem (hlegible file hfile)
        (hname file hfile)), splitInclusive_line (by decide)]
    rfl
  have hbody : ∀ line ∈ ['\n'] :: listLines files, trimEnd line ∉ requestHeadings := by
    refine forall_mem_cons.mpr ⟨by decide, fun line hline => ?_⟩
    obtain ⟨file, hfile, hmem⟩ := mem_flatMap.mp hline
    rcases mem_cons.mp hmem with rfl | hmem
    · exact (hlegible file hfile).line_not_request
    · rw [mem_singleton.mp hmem]
      decide
  have hfiles : (['\n'] :: listLines files).filterMap fileMention = files.map namedFile := by
    rw [filterMap_cons_none (by decide), listLines, filterMap_flatMap, ← flatMap_pure_eq_map]
    refine flatMap_congr (fun file hfile => ?_)
    rw [filterMap_cons_some (hlegible file hfile).fileMention_line]
    rfl
  rw [fileEnvelope_of_lines hlines (by decide) hbody (by decide), hfiles, splitInclusive_flatten]
  unfold requestAfter
  rw [if_neg (by simpa using hne)]
  have hblank : trimStart ('\n' :: authored) = trimStart authored := dropWhile_cons_of_pos rfl
  have hlen : utf8Len authored =
      utf8Len (authored.takeWhile isWhitespace) + utf8Len (trimStart authored) := by
    rw [← utf8Len_append]
    exact congrArg utf8Len takeWhile_append_dropWhile.symm
  have hoffset : utf8Len (envelopeStart files ++ authored) - utf8Len ('\n' :: authored) +
      utf8Len ('\n' :: authored) - utf8Len (trimStart authored) =
        utf8Len (envelopeStart files) + utf8Len (authored.takeWhile isWhitespace) := by
    have hpos : utf8Len ['\n'] ≤ utf8Len (envelopeStart files) := by
      rw [hstart]
      simp only [utf8Len_append, utf8Len_cons, utf8Len_nil]
      omega
    have hcons : utf8Len ('\n' :: authored) = utf8Len ['\n'] + utf8Len authored := by
      rw [← utf8Len_append]
      rfl
    rw [utf8Len_append]
    omega
  rw [hblank, hoffset]
  congr 2

def InText (len : Nat) (element : Json) : Prop :=
  element.Ascending ∧
    ∃ range : Json, ∃ start finish : Nat,
      element.get? "byteRange" = some range ∧ range.Ascending ∧
        range.get? "start" = some (.int start) ∧ range.get? "end" = some (.int finish) ∧
        start ≤ finish ∧ finish ≤ len

lemma shiftTextElement_eq {element range : Json} {start finish byteOffset : Nat}
    (hrange : element.get? "byteRange" = some range)
    (hstart : range.get? "start" = some (.int start))
    (hfinish : range.get? "end" = some (.int finish))
    (hle : start ≤ finish) (hfit : finish + byteOffset ≤ max64) :
    shiftTextElement byteOffset element = element.insert "byteRange"
      ((range.insert "start" (.int (start + byteOffset : Nat))).insert "end"
        (.int (finish + byteOffset : Nat))) := by
  unfold max64 at hfit
  have hshift : shiftRange byteOffset range =
      (range.insert "start" (.int (start + byteOffset : Nat))).insert "end"
        (.int (finish + byteOffset : Nat)) := by
    unfold shiftRange
    rw [foldl_cons, foldl_cons, foldl_nil, hstart, bind_some, asU64?_natCast (by omega)]
    simp only
    rw [get?_insert_of_ne _ _ (by decide), hfinish, bind_some, asU64?_natCast (by omega)]
    simp only
    rw [add64_of_le (by unfold max64; omega), add64_of_le (by unfold max64; omega)]
  unfold shiftTextElement
  simp only [hrange, Option.isSome_some, if_true, hshift]

lemma rebase_shift {len byteOffset : Nat} {element : Json} (h : InText len element)
    (hfit : byteOffset + len ≤ max64) (offset stop : Nat) :
    rebaseTextElement (byteOffset + offset) (byteOffset + stop)
      (shiftTextElement byteOffset element) = rebaseTextElement offset stop element := by
  obtain ⟨-, range, start, finish, hrange, hasc, hstart, hfinish, hle, hlen⟩ := h
  have hobj : element.isObj = true := isObj_of_get? hrange
  have hobj' : range.isObj = true := isObj_of_get? hstart
  rw [shiftTextElement_eq hrange hstart hfinish hle (by omega)]
  have hmax : byteOffset + len < 18446744073709551616 := by
    unfold max64 at hfit
    omega
  have hread : ∀ n : Nat, n ≤ byteOffset + len → asU64? (.int n) = some n :=
    fun n hn => asU64?_natCast (by omega)
  unfold rebaseTextElement
  rw [get?_insert hobj, if_pos rfl, hrange]
  simp only
  rw [get?_insert_of_ne _ _ (by decide), get?_insert hobj', if_pos rfl,
    get?_insert (by rw [isObj_insert]; exact hobj'), if_pos rfl, hstart, hfinish]
  rw [bind_some, hread (start + byteOffset) (by omega), bind_some,
    hread (finish + byteOffset) (by omega), bind_some, hread start (by omega),
    bind_some, hread finish (by omega)]
  simp only
  have hguard : (start + byteOffset < byteOffset + offset ∨ finish + byteOffset < start + byteOffset ∨
      byteOffset + stop < finish + byteOffset) ↔ (start < offset ∨ finish < start ∨ stop < finish) := by
    omega
  rw [show start + byteOffset - (byteOffset + offset) = start - offset by omega,
    show finish + byteOffset - (byteOffset + offset) = finish - offset by omega,
    insert_insert, insert_insert_insert (hasc.insert _ _), insert_insert]
  simp only [hguard]

lemma rebase_whole {len : Nat} {element : Json} (h : InText len element)
    (hfit : len ≤ max64) : rebaseTextElement 0 len element = some element := by
  obtain ⟨hasc, range, start, finish, hrange, hasc', hstart, hfinish, hle, hlen⟩ := h
  unfold max64 at hfit
  unfold rebaseTextElement
  rw [hrange]
  simp only
  rw [hstart, hfinish, bind_some, bind_some, asU64?_natCast (by omega), asU64?_natCast (by omega)]
  simp only
  rw [if_neg (by omega), Nat.sub_zero, Nat.sub_zero, insert_of_get? hasc' hstart,
    insert_of_get? hasc' hfinish, insert_of_get? hasc hrange]

def restoredPart (part : Json) (authored : String) : Json :=
  let lead := utf8Len (authored.toList.takeWhile isWhitespace)
  let request := trimChars authored.toList
  onTextElements (·.filterMap (rebaseTextElement lead (lead + utf8Len request)))
    (part.insert "text" (.str (String.ofList request)))

def Editable (part : Json) (authored : String) : Prop :=
  part.Ascending ∧ ∀ elements, (part.get? "text_elements").bind asArr? = some elements →
    ∀ element ∈ elements, InText (utf8Len authored.toList) element

lemma trimChars_eq_self_blank {l : List Char} (h : trimChars l = l) :
    l.takeWhile isWhitespace = [] := by
  obtain ⟨start, stop, hsplit, htrim⟩ := trimChars_split l
  have hlen := congrArg length hsplit
  have hparts := congrArg length (takeWhile_append_dropWhile (p := isWhitespace) (l := l))
  have hstart := congrArg length htrim
  rw [h] at hlen hstart
  simp only [length_append, trimStart] at hlen hparts hstart
  exact eq_nil_of_length_eq_zero (by omega)

variable {authored : String}

/-- Authored text without white space at its ends is restored exactly, with its elements. -/
lemma restoredPart_eq_self (htext : textOf part = some authored)
    (hpart : Editable part authored) (htrim : trimChars authored.toList = authored.toList)
    (hfit : utf8Len authored.toList ≤ max64) : restoredPart part authored = part := by
  have hfield : part.get? "text" = some (.str authored) := by
    unfold textOf at htext
    split at htext
    · obtain ⟨value, hvalue, hstr⟩ := bind_eq_some_iff.mp htext
      cases value with
      | str s =>
        cases hstr
        exact hvalue
      | _ => cases hstr
    · cases htext
  unfold restoredPart
  simp only
  rw [htrim, trimChars_eq_self_blank htrim, utf8Len_nil, Nat.zero_add, String.ofList_toList,
    insert_of_get? hpart.1 hfield]
  unfold onTextElements
  cases helem : (part.get? "text_elements").bind asArr? with
  | none => rfl
  | some elements =>
  have hsame : elements.filterMap (rebaseTextElement 0 (utf8Len authored.toList)) = elements := by
    refine (filterMap_congr (fun e he => ?_)).trans (filterMap_some (l := elements))
    exact rebase_whole (hpart.2 elements helem e he) hfit
  obtain ⟨value, hvalue, harr⟩ := bind_eq_some_iff.mp helem
  cases value with
  | arr items =>
    cases harr
    simp only
    rw [hsame, insert_of_get? hpart.1 hvalue]
  | _ => cases harr

lemma textOf_wrappedPart (files : List FileMention) (htext : textOf part = some authored) :
    textOf (wrappedPart files part authored) =
      some (String.ofList (envelopeStart files ++ authored.toList)) := by
  have hkeep : ∀ (f : List Json → List Json) (key : String), key ≠ "text_elements" →
      (onTextElements f part).get? key = part.get? key := by
    intro f key hkey
    unfold onTextElements
    split
    · rfl
    · exact get?_insert_of_ne _ _ hkey
  have hobj : ∀ f : List Json → List Json, (onTextElements f part).isObj = part.isObj := by
    intro f
    unfold onTextElements
    split
    · rfl
    · exact isObj_insert _ _ _
  unfold textOf at htext
  split at htext
  · rename_i htype
    obtain ⟨value, hvalue, -⟩ := bind_eq_some_iff.mp htext
    unfold textOf wrappedPart
    rw [get?_insert_of_ne _ _ (by decide), hkeep _ _ (by decide), if_pos htype,
      get?_insert ((hobj _).trans (isObj_of_get? hvalue)), if_pos rfl]
    rfl
  · cases htext

lemma projectPart_wrapped (hne : files ≠ [])
    (hlegible : ∀ file ∈ files, Legible file) (hname : ∀ file ∈ files, '\n' ∉ file.name.toList)
    (htext : textOf part = some authored) (hasc : part.Ascending)
    (hshift : ∀ elements, (part.get? "text_elements").bind asArr? = some elements →
      ∀ element ∈ elements, ∀ offset stop,
        rebaseTextElement (utf8Len (envelopeStart files) + offset)
          (utf8Len (envelopeStart files) + stop)
          (shiftTextElement (utf8Len (envelopeStart files)) element) =
            rebaseTextElement offset stop element) :
    projectPart mime (wrappedPart files part authored) =
      (files.map namedFile).map (filePart mime) ++ [restoredPart part authored] := by
  unfold projectPart
  rw [textOf_wrappedPart files htext, bind_some, String.toList_ofList,
    fileEnvelope_wrapped hne hlegible hname]
  simp only [String.toList_ofList]
  congr 2
  unfold restoredPart wrappedPart
  simp only
  rw [insert_insert, Nat.add_assoc]
  -- Only the elements differ between the two sides.
  cases helem : (part.get? "text_elements").bind asArr? with
  | none =>
    have hnone : ∀ (f : List Json → List Json) (text : Json),
        onTextElements f (part.insert "text" text) = part.insert "text" text := by
      intro f text
      unfold onTextElements
      rw [get?_insert_of_ne _ _ (by decide), helem]
    have hsame : ∀ f : List Json → List Json, onTextElements f part = part := by
      intro f
      unfold onTextElements
      rw [helem]
    rw [hsame, hnone, hnone]
  | some elements =>
  have hset : ∀ f : List Json → List Json,
      onTextElements f part = part.insert "text_elements" (.arr (f elements)) := by
    intro f
    unfold onTextElements
    rw [helem]
  have hrebase : (elements.map (shiftTextElement (utf8Len (envelopeStart files)))).filterMap
      (rebaseTextElement (utf8Len (envelopeStart files) +
          utf8Len (authored.toList.takeWhile isWhitespace))
        (utf8Len (envelopeStart files) + (utf8Len (authored.toList.takeWhile isWhitespace) +
          utf8Len (trimChars authored.toList)))) =
      elements.filterMap (rebaseTextElement (utf8Len (authored.toList.takeWhile isWhitespace))
        (utf8Len (authored.toList.takeWhile isWhitespace) +
          utf8Len (trimChars authored.toList))) := by
    rw [filterMap_map]
    exact filterMap_congr (fun e he => hshift elements helem e he _ _)
  have hobj : part.isObj = true := by
    obtain ⟨value, hvalue, -⟩ := bind_eq_some_iff.mp helem
    exact isObj_of_get? hvalue
  rw [hset]
  unfold onTextElements
  rw [get?_insert_of_ne _ _ (by decide), get?_insert hobj, if_pos rfl,
    get?_insert_of_ne _ _ (by decide), helem]
  simp only [bind_some, asArr?]
  rw [hrebase, insert_insert_insert hasc]

def emptyPart : Json :=
  .ofFields [("type", .str "text"), ("text", .str ""), ("text_elements", .arr [])]

lemma editable_emptyPart : Editable emptyPart "" := by
  refine ⟨ascending_ofFields _, fun elements helem e he => ?_⟩
  have hnone : (emptyPart.get? "text_elements").bind asArr? = some [] := by rfl
  rw [hnone] at helem
  cases helem
  cases he

lemma mentionedFilesPart_eq (files : List FileMention) :
    mentionedFilesPart files = wrappedPart files emptyPart "" := by
  have hempty : "".toList = [] := rfl
  have helem : (emptyPart.get? "text_elements").bind Json.asArr? = some [] := rfl
  unfold wrappedPart onTextElements
  rw [hempty, append_nil, helem]
  have hle : ¬ "text_elements" < "text" := by decide
  have hlt : "text" < "type" := by decide
  have hlast : "text_elements" < "type" := by decide
  have hne : ¬ "text_elements" = "text" := by decide
  simp only [emptyPart, mentionedFilesPart, Json.ofFields, foldl_cons, foldl_nil,
    Json.insert, Json.insertField, map_nil, hle, hlt, hlast, hne, hlt.ne, hlast.ne,
    if_true, if_false]

lemma mentionOf_name {ε : Type} {service : FileService ε} {raw : Json} {file : FileMention}
    (h : mentionOf service raw = some file) : '\n' ∉ file.name.toList := by
  unfold mentionOf at h
  split at h
  · cases h
  split at h
  · rename_i read hread
    cases h
    obtain ⟨name, path, hname, ⟨type, -, heq⟩ | heq⟩ := readRemoteFile_ok hread
    · cases heq
    · cases heq
      intro hmem
      exact absurd (boundedString_ok hname _ hmem) (by decide)
  · cases h

/-- Prepared inputs are shown as they were written, up to the white space at the ends of the texts.
-/
theorem projected_prepared {ε : Type} (service : FileService ε) (mime : String → Option String)
    {method : String} {params params' : Json} {input : List Json}
    (hmethod : method = "turn/start" ∨ method = "turn/steer")
    (hinput : params.get? "input" = some (.arr input))
    (hprepared : prepareRemoteFileInputs method params (some service) = .ok params')
    (hfiles : input.filterMap (mentionOf service) ≠ [])
    (hlegible : ∀ file ∈ input.filterMap (mentionOf service), Legible file) :
    (∀ before part after authored, input = before ++ part :: after →
      (∀ p ∈ before, textOf p = none) → textOf part = some authored → Editable part authored →
      utf8Len (envelopeStart (input.filterMap (mentionOf service))) +
        utf8Len authored.toList ≤ max64 →
      (∃ prepared, params'.get? "input" = some (.arr prepared) ∧
        projectDesktopContent mime prepared =
          before.filterMap (keptPart service) ++
            (((input.filterMap (mentionOf service)).map namedFile).map (filePart mime) ++
              restoredPart part authored ::
                projectDesktopContent mime (after.filterMap (keptPart service)))) ∧
        (trimChars authored.toList = authored.toList → restoredPart part authored = part)) ∧
    ((∀ p ∈ input, textOf p = none) →
      ∃ prepared, params'.get? "input" = some (.arr prepared) ∧
        projectDesktopContent mime prepared =
          ((input.filterMap (mentionOf service)).map namedFile).map (filePart mime) ++
            emptyPart :: input.filterMap (keptPart service)) ∧
    ∀ parts : List Json,
      (∀ p ∈ parts, ∀ text, textOf p = some text → ¬ IsFileEnvelope text.toList) →
        projectDesktopContent mime parts = parts := by
  have hpar := prepareRemoteFileInputs_ok hmethod hinput hfiles hprepared
  have hname : ∀ file ∈ input.filterMap (mentionOf service), '\n' ∉ file.name.toList := by
    intro file hfile
    obtain ⟨raw, -, hmention⟩ := mem_filterMap.mp hfile
    exact mentionOf_name hmention
  -- Inputs that are no text are shown as they are.
  have hkept : ∀ l : List Json, (∀ p ∈ l, textOf p = none) →
      (∀ p ∈ l.filterMap (keptPart service), textOf p = none) ∧
        (l.filterMap (keptPart service)).flatMap (projectPart mime) =
          l.filterMap (keptPart service) := by
    intro l hl
    have hnone : ∀ p ∈ l.filterMap (keptPart service), textOf p = none := by
      intro p hp
      obtain ⟨raw, hraw, hpart⟩ := mem_filterMap.mp hp
      exact textOf_keptPart hpart (hl raw hraw)
    refine ⟨hnone, flatMap_eq_self (fun p hp => projectPart_of_not_envelope mime ?_)⟩
    intro text htext
    rw [hnone p hp] at htext
    cases htext
  refine ⟨?_, ?_, fun parts hparts => projectDesktopContent_of_not_envelope mime hparts⟩
  · intro before part after authored hsplit hbef htext hpart hfit
    refine ⟨⟨_, hpar, ?_⟩, fun htrim => restoredPart_eq_self htext hpart htrim (by omega)⟩
    obtain ⟨hnone, hshown⟩ := hkept before hbef
    have hparts : input.filterMap (keptPart service) =
        before.filterMap (keptPart service) ++ part :: after.filterMap (keptPart service) := by
      rw [hsplit, filterMap_append, filterMap_cons_some (keptPart_of_text htext)]
    unfold wrapInput
    rw [hparts, wrapText_some _ _ hnone htext, Option.getD_some, projectDesktopContent_eq,
      flatMap_append, flatMap_cons, hshown,
      projectPart_wrapped mime hfiles hlegible hname htext hpart.1
        (fun elements helem e he => rebase_shift (hpart.2 elements helem e he) hfit),
      projectDesktopContent_eq, append_assoc]
    rfl
  intro hinputs
  refine ⟨_, hpar, ?_⟩
  obtain ⟨hnone, hshown⟩ := hkept input hinputs
  have htext : textOf emptyPart = some "" := rfl
  unfold wrapInput
  rw [wrapText_none _ hnone, Option.getD_none, mentionedFilesPart_eq, projectDesktopContent_eq,
    flatMap_cons, hshown, projectPart_wrapped mime hfiles hlegible hname htext
      editable_emptyPart.1 ?_, restoredPart_eq_self htext editable_emptyPart rfl (by decide),
    append_assoc]
  · rfl
  intro elements helem e he
  have hnone : (emptyPart.get? "text_elements").bind asArr? = some [] := rfl
  rw [hnone] at helem
  cases helem
  cases he

def notesService : FileService Unit := fun rootId path =>
  if rootId = "work" ∧ path = "notes.txt" then .ok (some "/w/notes.txt") else .error ()

def notesFile : Json :=
  .ofFields [("type", .str "remoteFile"), ("rootId", .str "work"), ("path", .str "notes.txt"),
    ("name", .str "notes: draft"), ("kind", .str "file")]

def readPart (text : String) : Json :=
  .ofFields [("type", .str "text"), ("text", .str text), ("text_elements", .arr [.ofFields
    [("byteRange", .ofFields [("start", .int 0), ("end", .int 4)])]])]

def notesParams (text : String) : Json :=
  .ofFields [("input", .arr [readPart text, notesFile])]

def plainMime : String → Option String := fun _ => none

def shownInput (text : String) : Option (List Json) :=
  match prepareRemoteFileInputs "turn/start" (notesParams text) (some notesService) with
  | .error _ => none
  | .ok params => ((params.get? "input").bind asArr?).map (projectDesktopContent plainMime)

/-- White space that was typed after the request is not shown, nor the name as it was given. -/
theorem trailing_space_not_restored :
    ∃ shown, shownInput "Read it " = some shown ∧
      readPart "Read it " ∉ shown ∧
      filePart plainMime ⟨"notes: draft", "/w/notes.txt"⟩ ∉ shown := by
  refine ⟨[filePart plainMime ⟨"notes- draft", "/w/notes.txt"⟩, readPart "Read it"], ?_, ?_, ?_⟩
  · decide +kernel
  · decide +kernel
  · decide +kernel

theorem notes_restored :
    ∃ params', prepareRemoteFileInputs "turn/start" (notesParams "Read it") (some notesService) =
      .ok params' ∧
      ∃ prepared, params'.get? "input" = some (.arr prepared) ∧
        projectDesktopContent plainMime prepared =
          [filePart plainMime ⟨"notes- draft", "/w/notes.txt"⟩, readPart "Read it"] := by
  have hprepared : ∃ params', prepareRemoteFileInputs "turn/start" (notesParams "Read it")
      (some notesService) = .ok params' := ⟨_, rfl⟩
  obtain ⟨params', hok⟩ := hprepared
  have hpart : Editable (readPart "Read it") "Read it" := by
    refine ⟨ascending_ofFields _, fun elements helem e he => ?_⟩
    have hone : ((readPart "Read it").get? "text_elements").bind asArr? = some [.ofFields
        [("byteRange", .ofFields [("start", .int 0), ("end", .int 4)])]] := rfl
    rw [hone] at helem
    cases helem
    rw [mem_singleton.mp he]
    exact ⟨ascending_ofFields _, _, 0, 4, rfl, ascending_ofFields _, rfl, rfl,
      by decide, by decide⟩
  have hfile : [readPart "Read it", notesFile].filterMap (mentionOf notesService) =
      [⟨"notes: draft", "/w/notes.txt"⟩] := rfl
  have hlegible : ∀ file ∈ [readPart "Read it", notesFile].filterMap (mentionOf notesService),
      Legible file := by
    intro file hmem
    rw [hfile] at hmem
    rw [mem_singleton.mp hmem]
    refine ⟨by decide, by decide, by decide, by decide, fun c hc => ?_⟩
    have hend : c = 't' := (Option.some.inj hc).symm
    rw [hend]
    exact ⟨by decide, by decide⟩
  obtain ⟨hall, -⟩ := @projected_prepared _ notesService plainMime "turn/start"
    (notesParams "Read it") params' [readPart "Read it", notesFile] (.inl rfl) rfl hok
    (by rw [hfile]; exact cons_ne_nil _ _) hlegible
  obtain ⟨⟨prepared, hpar, hshown⟩, hrestored⟩ :=
    hall [] (readPart "Read it") [notesFile] "Read it" rfl (fun p hp => absurd hp not_mem_nil)
      (by decide +kernel) hpart (by decide +kernel)
  refine ⟨params', hok, prepared, hpar, ?_⟩
  rw [hshown, hrestored (by decide +kernel)]
  decide +kernel

end CodeWide.Messages
