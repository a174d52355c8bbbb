import CodeWide.Lib.Json
import CodeWide.Lib.Saturating
import CodeWide.Messages.FileEnvelope

/-!
# Remote file inputs

The inputs of a turn name files under a configured root.
-/

namespace CodeWide.Messages

open Lib Lib.Text List Json

def maxRemoteFiles : Nat := 128

def maxFieldChars : Nat := 4096

inductive RemoteInputError (ε : Type) where
  | fileServiceUnavailable
  | tooManyFiles
  | invalidField (field : String)
  | invalidKind
  | nonUtf8Path
  | file (error : ε)

/-- Resolves a root and a relative path to the path of an existing file, `none` when that
path is no text. -/
abbrev FileService (ε : Type) := String → String → Except ε (Option String)

def isControl (c : Char) : Bool :=
  decide (c.toNat ≤ 31) || (decide (127 ≤ c.toNat) && decide (c.toNat ≤ 159))

variable {ε : Type}

def boundedString (part : Json) (field : String) : Except (RemoteInputError ε) String :=
  match (part.get? field).bind asStr? with
  | none => .error (.invalidField field)
  | some value =>
    if value.toList = [] ∨ maxFieldChars < utf8Len value.toList ∨
        value.toList.any isControl = true then
      .error (.invalidField field)
    else .ok value

def isRemoteFile (value : Json) : Bool := (value.get? "type").bind asStr? == some "remoteFile"

def textOf (part : Json) : Option String :=
  if (part.get? "type").bind asStr? = some "text" then (part.get? "text").bind asStr?
  else none

def resolveHostPath (files : FileService ε) (rootId relativePath : String) :
    Except (RemoteInputError ε) String :=
  match files rootId relativePath with
  | .error error => .error (.file error)
  | .ok none => .error .nonUtf8Path
  | .ok (some path) => .ok path

def readRemoteFile (files : FileService ε) (part : Json) :
    Except (RemoteInputError ε) (Json ⊕ FileMention) := do
  let rootId ← boundedString part "rootId"
  let relativePath ← boundedString part "path"
  let name ← boundedString part "name"
  let kind ← boundedString part "kind"
  if kind ≠ "image" ∧ kind ≠ "audio" ∧ kind ≠ "file" then
    throw .invalidKind
  let hostPath ← resolveHostPath files rootId relativePath
  if kind = "image" then
    return .inl (.ofFields [("type", .str "localImage"), ("path", .str hostPath)])
  else if kind = "audio" then
    return .inl (.ofFields [("type", .str "localAudio"), ("path", .str hostPath)])
  else
    return .inr ⟨name, hostPath⟩

structure Prepared where
  remoteFiles : Nat
  mentionedFiles : List FileMention
  prepared : List Json

def preparePart (files : FileService ε) (p : Prepared) (raw : Json) :
    Except (RemoteInputError ε) Prepared :=
  if isRemoteFile raw = false then .ok { p with prepared := p.prepared ++ [raw] }
  else if maxRemoteFiles < p.remoteFiles + 1 then .error .tooManyFiles
  else
    match readRemoteFile files raw with
    | .error error => .error error
    | .ok (.inl part) => .ok ⟨p.remoteFiles + 1, p.mentionedFiles, p.prepared ++ [part]⟩
    | .ok (.inr file) => .ok ⟨p.remoteFiles + 1, p.mentionedFiles ++ [file], p.prepared⟩

def safeName (name : List Char) : List Char :=
  (name.map (fun c => if c = ':' then '-' else c)).map (fun c => if c = '`' then '\'' else c)

def fileLine (file : FileMention) : List Char :=
  "## ".toList ++ safeName file.name.toList ++ ": ".toList ++ file.path.toList

def fileList (files : List FileMention) : List Char :=
  ("\n\n".toList).intercalate (files.map fileLine)

def envelopeStart (files : List FileMention) : List Char :=
  "# Files mentioned by the user:\n\n".toList ++ fileList files ++ "\n\n## My request:\n\n".toList

def shiftRange (byteOffset : Nat) (range : Json) : Json :=
  ["start", "end"].foldl (fun range edge =>
    match (range.get? edge).bind asU64? with
    | none => range
    | some value => range.insert edge (.int (Saturating.add64 value byteOffset : Nat))) range

def shiftTextElement (byteOffset : Nat) (element : Json) : Json :=
  let key := if (element.get? "byteRange").isSome then "byteRange" else "byte_range"
  match element.get? key with
  | none => element
  | some range => element.insert key (shiftRange byteOffset range)

def onTextElements (f : List Json → List Json) (part : Json) : Json :=
  match (part.get? "text_elements").bind asArr? with
  | none => part
  | some elements => part.insert "text_elements" (.arr (f elements))

/-- Puts the files in front of the first text, or of a text of their own. -/
def wrapTextWithMentionedFiles (files : List FileMention) : List Json → Option (List Json)
  | [] => none
  | part :: parts =>
    match textOf part with
    | some authored =>
      let wrapped := String.ofList (envelopeStart files ++ authored.toList)
      let shifted :=
        onTextElements (·.map (shiftTextElement (utf8Len (envelopeStart files)))) part
      some (shifted.insert "text" (.str wrapped) :: parts)
    | none => (wrapTextWithMentionedFiles files parts).map (part :: ·)

def mentionedFilesPart (files : List FileMention) : Json :=
  .ofFields [("type", .str "text"), ("text", .str (String.ofList (envelopeStart files))),
    ("text_elements", .arr [])]

def wrapInput (files : List FileMention) (parts : List Json) : List Json :=
  (wrapTextWithMentionedFiles files parts).getD (mentionedFilesPart files :: parts)

def prepareRemoteFileInputs (method : String) (params : Json) (files : Option (FileService ε)) :
    Except (RemoteInputError ε) Json :=
  if method ≠ "turn/start" ∧ method ≠ "turn/steer" then .ok params
  else
    match (params.get? "input").bind asArr? with
    | none => .ok params
    | some input =>
      if input.any isRemoteFile = false then .ok params
      else
        match files with
        | none => .error .fileServiceUnavailable
        | some files =>
          match input.foldlM (preparePart files) ⟨0, [], []⟩ with
          | .error error => .error error
          | .ok p =>
            let prepared :=
              if p.mentionedFiles = [] then p.prepared
              else wrapInput p.mentionedFiles p.prepared
            .ok (params.insert "input" (.arr prepared))

lemma bind_ok {α β δ : Type} {x : Except δ α} {f : α → Except δ β} {b : β}
    (h : (x >>= f) = .ok b) : ∃ a, x = .ok a ∧ f a = .ok b := by
  cases x with
  | error e => cases h
  | ok a => exact ⟨a, rfl, h⟩

variable {part : Json}

lemma boundedString_ok {field value : String}
    (h : boundedString part field = (.ok value : Except (RemoteInputError ε) String)) :
    ∀ c ∈ value.toList, isControl c = false := by
  unfold boundedString at h
  split at h
  · cases h
  split at h
  · cases h
  rename_i hbound
  cases h
  rw [not_or, not_or] at hbound
  intro c hc
  have hany := hbound.2.2
  rw [Bool.not_eq_true, any_eq_false] at hany
  exact Bool.eq_false_iff.mpr (hany c hc)

variable {files : FileService ε}

lemma readRemoteFile_ok {r : Json ⊕ FileMention} (h : readRemoteFile files part = .ok r) :
    ∃ name path, boundedString part "name" = (.ok name : Except (RemoteInputError ε) String) ∧
      ((∃ type, type ≠ "text" ∧ r = .inl (.ofFields [("type", .str type), ("path", .str path)])) ∨
        r = .inr ⟨name, path⟩) := by
  obtain ⟨rootId, -, h⟩ := bind_ok h
  obtain ⟨relativePath, -, h⟩ := bind_ok h
  obtain ⟨name, hname, h⟩ := bind_ok h
  obtain ⟨kind, -, h⟩ := bind_ok h
  simp only at h
  split at h
  · cases h
  obtain ⟨path, -, h⟩ := bind_ok h
  refine ⟨name, path, hname, ?_⟩
  split at h
  · cases h
    exact .inl ⟨"localImage", by decide, rfl⟩
  split at h
  · cases h
    exact .inl ⟨"localAudio", by decide, rfl⟩
  · cases h
    exact .inr rfl

def mentionOf (files : FileService ε) (raw : Json) : Option FileMention :=
  if isRemoteFile raw = false then none
  else
    match readRemoteFile files raw with
    | .ok (.inr file) => some file
    | _ => none

def keptPart (files : FileService ε) (raw : Json) : Option Json :=
  if isRemoteFile raw = false then some raw
  else
    match readRemoteFile files raw with
    | .ok (.inl part) => some part
    | _ => none

lemma preparePart_ok {p q : Prepared} {raw : Json} (h : preparePart files p raw = .ok q) :
    q.mentionedFiles = p.mentionedFiles ++ (mentionOf files raw).toList ∧
      q.prepared = p.prepared ++ (keptPart files raw).toList := by
  unfold preparePart at h
  unfold mentionOf keptPart
  split at h
  · rename_i hraw
    cases h
    rw [if_pos hraw, if_pos hraw]
    exact ⟨(append_nil _).symm, rfl⟩
  rename_i hraw
  rw [if_neg hraw, if_neg hraw]
  split at h
  · cases h
  cases hread : readRemoteFile files raw with
  | error error =>
    rw [hread] at h
    cases h
  | ok r =>
  rw [hread] at h
  cases r with
  | inl part =>
    cases h
    exact ⟨(append_nil _).symm, rfl⟩
  | inr file =>
    cases h
    exact ⟨rfl, (append_nil _).symm⟩

lemma prepareParts_ok {input : List Json} {p q : Prepared}
    (h : input.foldlM (preparePart files) p = .ok q) :
    q.mentionedFiles = p.mentionedFiles ++ input.filterMap (mentionOf files) ∧
      q.prepared = p.prepared ++ input.filterMap (keptPart files) := by
  induction input generalizing p with
  | nil =>
    cases h
    exact ⟨(append_nil _).symm, (append_nil _).symm⟩
  | cons raw rest ih =>
  rw [foldlM_cons] at h
  obtain ⟨p', hstep, hrest⟩ := bind_ok h
  obtain ⟨hfiles, hparts⟩ := preparePart_ok hstep
  obtain ⟨hfiles', hparts'⟩ := ih hrest
  rw [hfiles', hparts', hfiles, hparts, append_assoc, append_assoc]
  constructor
  · cases hfile : mentionOf files raw with
    | none => rw [filterMap_cons_none hfile]; rfl
    | some file => rw [filterMap_cons_some hfile]; rfl
  · cases hpart : keptPart files raw with
    | none => rw [filterMap_cons_none hpart]; rfl
    | some part => rw [filterMap_cons_some hpart]; rfl

lemma prepareRemoteFileInputs_ok {method : String} {params params' : Json} {input : List Json}
    (hmethod : method = "turn/start" ∨ method = "turn/steer")
    (hinput : params.get? "input" = some (.arr input))
    (hfiles : input.filterMap (mentionOf files) ≠ [])
    (h : prepareRemoteFileInputs method params (some files) = .ok params') :
    params'.get? "input" = some (.arr (wrapInput (input.filterMap (mentionOf files))
      (input.filterMap (keptPart files)))) := by
  have hany : ¬ input.any isRemoteFile = false := by
    intro hnone
    obtain ⟨file, hfile⟩ := exists_mem_of_ne_nil _ hfiles
    obtain ⟨raw, hraw, hmention⟩ := mem_filterMap.mp hfile
    rw [any_eq_false] at hnone
    unfold mentionOf at hmention
    rw [if_pos (Bool.eq_false_iff.mpr (hnone raw hraw))] at hmention
    cases hmention
  unfold prepareRemoteFileInputs at h
  rw [if_neg (by rcases hmethod with rfl | rfl <;> decide), hinput, Option.bind_some] at h
  simp only [asArr?] at h
  rw [if_neg hany] at h
  split at h
  · cases h
  rename_i p hparts
  obtain ⟨hmentioned, hprep⟩ := prepareParts_ok hparts
  rw [nil_append] at hmentioned hprep
  cases h
  rw [get?_insert (isObj_of_get? hinput), if_pos rfl, hmentioned, hprep, if_neg hfiles]

lemma textOf_localPart {type path : String} (h : type ≠ "text") :
    textOf (.ofFields [("type", .str type), ("path", .str path)]) = none := by
  have htype : (ofFields [("type", .str type), ("path", .str path)]).get? "type" =
      some (.str type) := by
    rw [get?_ofFields]
    rfl
  unfold textOf
  rw [htype, Option.bind_some, asStr?, if_neg (fun hsome => h (Option.some.inj hsome))]

lemma textOf_keptPart {raw part : Json} (h : keptPart files raw = some part)
    (hraw : textOf raw = none) : textOf part = none := by
  unfold keptPart at h
  split at h
  · cases h
    exact hraw
  split at h
  · rename_i kept hread
    cases h
    obtain ⟨name, path, -, ⟨type, htype, heq⟩ | heq⟩ := readRemoteFile_ok hread
    · cases heq
      exact textOf_localPart htype
    · cases heq
  · cases h

lemma keptPart_of_text {text : String}
    (h : textOf part = some text) : keptPart files part = some part := by
  have htype : (part.get? "type").bind asStr? = some "text" := by
    unfold textOf at h
    split at h
    · assumption
    · cases h
  have hremote : isRemoteFile part = false := by
    unfold isRemoteFile
    rw [htype]
    rfl
  unfold keptPart
  rw [if_pos hremote]

lemma wrapText_none (files : List FileMention) {parts : List Json}
    (h : ∀ part ∈ parts, textOf part = none) : wrapTextWithMentionedFiles files parts = none := by
  induction parts with
  | nil => rfl
  | cons part rest ih =>
  rw [wrapTextWithMentionedFiles, h part mem_cons_self]
  simp only
  rw [ih (fun p hp => h p (mem_cons_of_mem _ hp))]
  rfl

def wrappedPart (files : List FileMention) (part : Json) (authored : String) : Json :=
  (onTextElements (·.map (shiftTextElement (utf8Len (envelopeStart files)))) part).insert "text"
    (.str (String.ofList (envelopeStart files ++ authored.toList)))

lemma wrapText_some (files : List FileMention) {before : List Json}
    {authored : String} (after : List Json) (h : ∀ part ∈ before, textOf part = none)
    (htext : textOf part = some authored) :
    wrapTextWithMentionedFiles files (before ++ part :: after) =
      some (before ++ wrappedPart files part authored :: after) := by
  induction before with
  | nil =>
    rw [nil_append, wrapTextWithMentionedFiles, htext]
    rfl
  | cons first rest ih =>
  rw [cons_append, wrapTextWithMentionedFiles, h first mem_cons_self]
  simp only
  rw [ih (fun p hp => h p (mem_cons_of_mem _ hp))]
  rfl

end CodeWide.Messages
