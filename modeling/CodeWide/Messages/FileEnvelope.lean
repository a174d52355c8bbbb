import CodeWide.Lib.Text
import Mathlib.Tactic.Set

/-!
# The file envelope

A prompt with attached files names them before the request: a heading, one line for each file, and a
heading that ends the list (`fileEnvelope`).
-/

namespace CodeWide.Messages

open Lib Lib.Text List

structure FileMention where
  name : String
  path : String

structure FileEnvelope where
  files : List FileMention
  request : String
  requestOffset : Nat

def filesHeading : List Char := "# Files mentioned by the user:".toList

/-- The headings that end the file list. The second is the earlier form. -/
def requestHeadings : List (List Char) :=
  ["## My request:".toList, "## My request for Codex:".toList]

def isAbsolute (path : List Char) : Bool := path.head? == some '/'

def fileMention (line : List Char) : Option FileMention :=
  if "## ".toList.isPrefixOf line then
    (splitOnce ": ".toList (line.drop 3)).bind (fun cut =>
      let name := trimChars cut.1
      let path := trimMatches '`' (trimChars cut.2)
      if name ≠ [] ∧ '\x00' ∉ path ∧ isAbsolute path = true then
        some ⟨String.ofList name, String.ofList path⟩
      else none)
  else none

def requestAfter (files : List FileMention) (offset : Nat) (remainder : List Char) :
    Option FileEnvelope :=
  if files = [] then none
  else
    some {
      files
      request := String.ofList (trimChars remainder)
      requestOffset := offset + utf8Len remainder - utf8Len (trimStart remainder) }

def scanLines (text : List Char) : List (List Char) → Nat → List FileMention → Option FileEnvelope
  | [], _, _ => none
  | line :: lines, offset, files =>
    if trimEnd line ∈ requestHeadings then
      (splitAtByte text (offset + utf8Len line)).bind (fun cut =>
        requestAfter files (offset + utf8Len line) cut.2)
    else
      match fileMention line with
      | some file => scanLines text lines (offset + utf8Len line) (files ++ [file])
      | none => scanLines text lines (offset + utf8Len line) files

def fileEnvelope (text : List Char) : Option FileEnvelope :=
  match splitInclusive (trimStart text) with
  | [] => none
  | heading :: lines =>
    if trimEnd heading = filesHeading then
      scanLines text lines (utf8Len text - utf8Len (trimStart text) + utf8Len heading) []
    else none

/-- The text is an envelope: the heading, lines of which one names a file, and the end of the list.
-/
def IsFileEnvelope (text : List Char) : Prop :=
  ∃ heading body request rest,
    splitInclusive (trimStart text) = heading :: (body ++ request :: rest) ∧
      trimEnd heading = filesHeading ∧
      (∀ line ∈ body, trimEnd line ∉ requestHeadings) ∧
      (∃ line ∈ body, (fileMention line).isSome = true) ∧
      trimEnd request ∈ requestHeadings

lemma scanLines_heading {request : List Char} (hreq : trimEnd request ∈ requestHeadings)
    (rest body : List (List Char)) (hbody : ∀ line ∈ body, trimEnd line ∉ requestHeadings)
    (start : List Char) (files : List FileMention) :
    scanLines (start ++ (body ++ request :: rest).flatten) (body ++ request :: rest)
        (utf8Len start) files =
      requestAfter (files ++ body.filterMap fileMention)
        (utf8Len (start ++ body.flatten ++ request)) rest.flatten := by
  induction body generalizing start files with
  | nil =>
    have hcut : splitAtByte (start ++ ([] ++ request :: rest).flatten)
        (utf8Len start + utf8Len request) = some (start ++ request, rest.flatten) := by
      rw [← utf8Len_append, nil_append, flatten_cons, ← append_assoc]
      exact splitAtByte_append _ _
    rw [nil_append, scanLines, if_pos hreq, ← nil_append (request :: rest), hcut]
    simp
  | cons line body ih =>
  have hline := hbody line mem_cons_self
  have hstep := fun files => ih (fun l hl => hbody l (mem_cons_of_mem _ hl)) (start ++ line) files
  have htext : start ++ (line :: body ++ request :: rest).flatten =
      start ++ line ++ (body ++ request :: rest).flatten := by simp
  have hread : start ++ line ++ body.flatten ++ request =
      start ++ (line :: body).flatten ++ request := by simp
  rw [cons_append, scanLines, if_neg hline, ← utf8Len_append, ← cons_append, htext]
  cases hfile : fileMention line with
  | none =>
    simp only
    rw [hstep, hread, filterMap_cons_none hfile]
  | some file =>
  simp only
  rw [hstep, hread, filterMap_cons_some hfile, append_assoc]
  rfl

lemma scanLines_none (text : List Char) {lines : List (List Char)}
    (h : ∀ line ∈ lines, trimEnd line ∉ requestHeadings) (offset : Nat)
    (files : List FileMention) : scanLines text lines offset files = none := by
  induction lines generalizing offset files with
  | nil => rfl
  | cons line lines ih =>
  have hrest := ih (fun l hl => h l (mem_cons_of_mem _ hl))
  rw [scanLines, if_neg (h line mem_cons_self)]
  cases fileMention line with
  | none | some file => exact hrest _ _

lemma split_at_request (lines : List (List Char)) :
    (∀ line ∈ lines, trimEnd line ∉ requestHeadings) ∨
      ∃ body request rest, lines = body ++ request :: rest ∧
        (∀ line ∈ body, trimEnd line ∉ requestHeadings) ∧ trimEnd request ∈ requestHeadings := by
  induction lines with
  | nil => exact .inl (fun _ h => absurd h not_mem_nil)
  | cons line lines ih =>
  by_cases hline : trimEnd line ∈ requestHeadings
  · exact .inr ⟨[], line, lines, rfl, fun _ h => absurd h not_mem_nil, hline⟩
  · rcases ih with hnone | ⟨body, request, rest, rfl, hbody, hreq⟩
    · exact .inl (forall_mem_cons.mpr ⟨hline, hnone⟩)
    · exact .inr ⟨line :: body, request, rest, rfl, forall_mem_cons.mpr ⟨hline, hbody⟩, hreq⟩

lemma fileEnvelope_of_lines {text heading request : List Char} {body rest : List (List Char)}
    (hlines : splitInclusive (trimStart text) = heading :: (body ++ request :: rest))
    (hheading : trimEnd heading = filesHeading)
    (hbody : ∀ line ∈ body, trimEnd line ∉ requestHeadings)
    (hreq : trimEnd request ∈ requestHeadings) :
    fileEnvelope text =
      requestAfter (body.filterMap fileMention) (utf8Len text - utf8Len rest.flatten)
        rest.flatten := by
  have hblank : text = text.takeWhile isWhitespace ++ trimStart text :=
    takeWhile_append_dropWhile.symm
  have htrimmed : trimStart text = heading ++ (body ++ request :: rest).flatten := by
    rw [← splitInclusive_flatten (trimStart text), hlines, flatten_cons]
  set blank := text.takeWhile isWhitespace with hdef
  have htext : text = blank ++ heading ++ (body ++ request :: rest).flatten := by
    rw [append_assoc, ← htrimmed]
    exact hblank
  have hoffset : utf8Len text - utf8Len (trimStart text) + utf8Len heading =
      utf8Len (blank ++ heading) := by
    have hlen := congrArg utf8Len hblank
    rw [utf8Len_append] at hlen ⊢
    omega
  unfold fileEnvelope
  rw [hlines]
  simp only
  rw [if_pos hheading, hoffset, htext, scanLines_heading hreq rest body hbody, nil_append]
  congr 1
  simp only [flatten_append, flatten_cons, utf8Len_append]
  omega

lemma requestAfter_isSome (files : List FileMention) (offset : Nat) (remainder : List Char) :
    (requestAfter files offset remainder).isSome = true ↔ files ≠ [] := by
  unfold requestAfter
  split <;> simp_all

lemma fileEnvelope_isSome_iff (text : List Char) :
    (fileEnvelope text).isSome = true ↔ IsFileEnvelope text := by
  constructor
  · intro h
    unfold fileEnvelope at h
    cases hlines : splitInclusive (trimStart text) with
    | nil =>
      rw [hlines] at h
      cases h
    | cons heading lines =>
    rw [hlines] at h
    simp only at h
    split at h
    · rename_i hheading
      rcases split_at_request lines with hnone | ⟨body, request, rest, rfl, hbody, hreq⟩
      · rw [scanLines_none text hnone] at h
        cases h
      have hread := fileEnvelope_of_lines hlines hheading hbody hreq
      have hsome : (fileEnvelope text).isSome = true := by
        unfold fileEnvelope
        rw [hlines]
        simp only
        rw [if_pos hheading]
        exact h
      rw [hread, requestAfter_isSome] at hsome
      obtain ⟨file, hfile⟩ := exists_mem_of_ne_nil _ hsome
      obtain ⟨line, hline, hsome⟩ := mem_filterMap.mp hfile
      exact ⟨heading, body, request, rest, hlines, hheading, hbody,
        ⟨line, hline, Option.isSome_iff_exists.mpr ⟨file, hsome⟩⟩, hreq⟩
    · cases h
  rintro ⟨heading, body, request, rest, hlines, hheading, hbody, ⟨line, hline, hfile⟩, hreq⟩
  rw [fileEnvelope_of_lines hlines hheading hbody hreq, requestAfter_isSome]
  obtain ⟨file, hsome⟩ := Option.isSome_iff_exists.mp hfile
  exact ne_nil_of_mem (mem_filterMap.mpr ⟨line, hline, hsome⟩)

lemma starts_of_fileEnvelope {text : List Char} {envelope : FileEnvelope}
    (h : fileEnvelope text = some envelope) : filesHeading <+: trimStart text := by
  unfold fileEnvelope at h
  cases hlines : splitInclusive (trimStart text) with
  | nil =>
    rw [hlines] at h
    cases h
  | cons heading lines =>
  rw [hlines] at h
  simp only at h
  split at h
  · rename_i hheading
    rw [← splitInclusive_flatten (trimStart text), hlines, flatten_cons, ← hheading]
    have hprefix := rdropWhile_prefix isWhitespace (l := heading)
    exact hprefix.trans (prefix_append _ _)
  · cases h

end CodeWide.Messages
