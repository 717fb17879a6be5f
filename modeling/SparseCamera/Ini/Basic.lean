import SparseCamera.Lib.CString
import SparseCamera.Lib.LineReader
import SparseCamera.Wire.Format

/-!
# The INI reader

`ini_load` reads a file piece by piece into a fixed table of sections, each with a fixed table of
pairs, and gives up at the first piece it does not like. The tables are lists here, since they are
only ever filled from the front; their capacities are checked where the source checks them.

## The construction

`IniReader` is the store while it is being read. Which section is open is part of its shape and not
an index beside the table, so a pair is never added to a section that does not exist: the branch of
the source that complains about it is the constructor without a section.

The loop is a recursion over the pieces of the file, with the number of the line that the complaint
names. `fgets` is `getLine`, and what it stores in its array is a piece.
-/

namespace SparseCamera

open CString LineReader

def iniMaxSections : ℕ := 24
def iniMaxKeys : ℕ := 16
def iniMaxLen : ℕ := 128
def iniLineMax : ℕ := 512

/-- `ini_pair_t`. -/
structure IniPair where
  key : Bytes
  value : Bytes
deriving DecidableEq

/-- `ini_section_t`. -/
structure IniSection where
  name : Bytes
  pairs : List IniPair
deriving DecidableEq

/-- `ini_t`. -/
structure Ini where
  sections : List IniSection
deriving DecidableEq

/-! ## Lookups -/

/-- `find_section`. -/
def findSection (sections : List IniSection) (name : Bytes) : Option IniSection :=
  sections.find? fun sec ↦ sec.name = name

/-- `ini_section_name`. -/
def iniSectionName (ini : Ini) (i : ℕ) : Option Bytes := ini.sections[i]?.map IniSection.name

/-- `ini_has_section`. -/
def iniHasSection (ini : Ini) (name : Bytes) : Bool := (findSection ini.sections name).isSome

/-- `ini_get`. -/
def iniGet (ini : Ini) (name key : Bytes) : Option Bytes :=
  (findSection ini.sections name).bind fun sec ↦
    (sec.pairs.find? fun pair ↦ pair.key = key).map IniPair.value

/-! ## Errors

Every complaint of the source is a constructor, and its text is a function of it. The place, file
and line, is added outside. -/

/-- What can be wrong with a line. -/
inductive IniLineErr where
  | missingBracket
  | emptyName
  | nameTooLong
  | duplicateSection (name : Bytes)
  | tooManySections
  | expectedPair
  | emptyKey
  | keyBeforeSection (key : Bytes)
  | tooLong
  | duplicateKey (key name : Bytes)
  | tooManyKeys (name : Bytes)
deriving DecidableEq

/-- The message, without the place. -/
def IniLineErr.text : IniLineErr → Bytes
  | missingBracket => ascii "section is missing ']'"
  | emptyName => ascii "empty section name"
  | nameTooLong => ascii "section name longer than " ++ ascii (toString (iniMaxLen - 1))
  | duplicateSection name => ascii "duplicate section [" ++ name ++ ascii "]"
  | tooManySections => ascii "more than " ++ ascii (toString iniMaxSections) ++ ascii " sections"
  | expectedPair => ascii "expected 'key = value'"
  | emptyKey => ascii "empty key"
  | keyBeforeSection key => ascii "key '" ++ key ++ ascii "' before any [section]"
  | tooLong => ascii "key or value longer than " ++ ascii (toString (iniMaxLen - 1))
  | duplicateKey key name =>
    ascii "duplicate key '" ++ key ++ ascii "' in [" ++ name ++ ascii "]"
  | tooManyKeys name =>
    ascii "more than " ++ ascii (toString iniMaxKeys) ++ ascii " keys in [" ++ name ++ ascii "]"

/-- Why nothing was loaded. -/
inductive IniErr where
  | noPath
  | cannotOpen (path reason : Bytes)
  | allocationFailed
  | line (path : Bytes) (lineno : ℕ) (what : IniLineErr)
deriving DecidableEq

/-- The message for `err`, before it is cut to the caller's array. -/
def IniErr.text : IniErr → Bytes
  | noPath => ascii "ini: no path given"
  | cannotOpen path reason => ascii "ini: cannot open " ++ path ++ ascii ": " ++ reason
  | allocationFailed => ascii "ini: allocation failed"
  | line path lineno what =>
    path ++ ascii ":" ++ ascii (toString lineno) ++ ascii ": " ++ what.text

/-! ## One line -/

def isComment (b : UInt8) : Bool := b = chr '#' || b = chr ';'

/-- `strip_comment`. -/
def stripComment (s : Bytes) : Bytes := s.takeWhile fun b ↦ !isComment b

/-- `trim`. -/
def trim (s : Bytes) : Bytes := s.strip isspace

/-- What is left of a line when the comment and the blanks around it are gone. -/
def lineText (line : Bytes) : Bytes := trim (stripComment (cstring line))

/-- The store while it is being read. `cur` is the section that was opened last, if there is one,
and `closed` holds those before it. -/
inductive IniReader where
  | empty
  | within (closed : List IniSection) (cur : IniSection)
deriving DecidableEq

def IniReader.sections : IniReader → List IniSection
  | empty => []
  | within closed cur => closed ++ [cur]

/-- A line that begins with `[`. What follows the bracket that closes the name is not looked at. -/
def IniReader.openSection (st : IniReader) (s : Bytes) : Except IniLineErr IniReader :=
  match strchr (chr ']') s with
  | none => .error .missingBracket
  | some (before, _) =>
    let name := trim before.tail
    if name = [] then .error .emptyName
    else if iniMaxLen ≤ name.length then .error .nameTooLong
    else if (findSection st.sections name).isSome then .error (.duplicateSection name)
    else if iniMaxSections ≤ st.sections.length then .error .tooManySections
    else .ok (.within st.sections { name := snprintf iniMaxLen name, pairs := [] })

/-- Any other line. -/
def IniReader.addPair (st : IniReader) (s : Bytes) : Except IniLineErr IniReader :=
  match strchr (chr '=') s with
  | none => .error .expectedPair
  | some (before, after) =>
    let key := trim before
    let value := trim after
    if key = [] then .error .emptyKey
    else
      match st with
      | .empty => .error (.keyBeforeSection key)
      | .within closed cur =>
        if iniMaxLen ≤ key.length ∨ iniMaxLen ≤ value.length then .error .tooLong
        else if cur.pairs.any fun pair ↦ pair.key = key then .error (.duplicateKey key cur.name)
        else if iniMaxKeys ≤ cur.pairs.length then .error (.tooManyKeys cur.name)
        else
          let pair := { key := snprintf iniMaxLen key, value := snprintf iniMaxLen value }
          .ok (.within closed { cur with pairs := cur.pairs ++ [pair] })

/-- The body of the loop in `ini_load`. -/
def IniReader.line (st : IniReader) (line : Bytes) : Except IniLineErr IniReader :=
  match lineText line with
  | [] => .ok st
  | b :: s => if b = chr '[' then st.openSection (b :: s) else st.addPair (b :: s)

/-! ## The file -/

/-- The loop in `ini_load`; `lineno` is the number of the line before. -/
def IniReader.lines (st : IniReader) (lineno : ℕ) : List Bytes → Except (ℕ × IniLineErr) IniReader
  | [] => .ok st
  | line :: rest =>
    match st.line line with
    | .error what => .error (lineno + 1, what)
    | .ok st => st.lines (lineno + 1) rest

/-- What `fgets` stores in the array, one call after another. -/
def iniPieces (contents : Bytes) : List Bytes := pieces newline (iniLineMax - 1) contents

/-- `ini_load`. `fopen` opens a file or says why it cannot, `granted` says whether the store can be
allocated. -/
def iniLoad (fopen : Bytes → Except Bytes Bytes) (granted : Bool) (path : Option Bytes) :
    Except IniErr Ini :=
  match path with
  | none => .error .noPath
  | some path =>
    match fopen path with
    | .error reason => .error (.cannotOpen path reason)
    | .ok contents =>
      if granted then
        match IniReader.empty.lines 0 (iniPieces contents) with
        | .error (lineno, what) => .error (.line path lineno what)
        | .ok st => .ok { sections := st.sections }
      else .error .allocationFailed

/-- It succeeds exactly when the file opens, the store is granted and every line is accepted. -/
theorem iniLoad_eq_ok_iff {fopen : Bytes → Except Bytes Bytes} {granted : Bool}
    {path : Option Bytes} {ini : Ini} :
    iniLoad fopen granted path = .ok ini ↔
      ∃ name contents st, path = some name ∧ fopen name = .ok contents ∧ granted = true ∧
        IniReader.empty.lines 0 (iniPieces contents) = .ok st ∧ ini.sections = st.sections := by
  constructor
  · intro h
    cases path with
    | none => cases h
    | some name =>
      rw [iniLoad] at h
      split at h
      · cases h
      · next contents hopen =>
        split_ifs at h with hgranted
        split at h
        · cases h
        · next st hlines =>
          obtain rfl := Except.ok.inj h
          exact ⟨name, contents, st, rfl, hopen, hgranted, hlines, rfl⟩
  · rintro ⟨name, contents, st, rfl, hopen, rfl, hlines, hsections⟩
    rw [iniLoad]
    simp only [hopen, hlines, ↓reduceIte, ← hsections]

end SparseCamera
