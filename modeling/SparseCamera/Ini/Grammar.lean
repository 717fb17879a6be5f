import SparseCamera.Ini.Basic

/-!
# What a configuration file says

A piece of a file is blank, opens a section, sets a key, or is none of these: its directive. A
store has directives too, the ones that would build it.

## The construction

Directives are the language in which a file and a store are compared: `directives` reads them off a
file, `Ini.directives` reads them off a store. The rest of the reader is then a statement that two
lists are equal. A text in a well-formed store is `Plain`: it has none of the bytes that would mean
something else in a file, and no blanks at its ends.
-/

namespace SparseCamera

open CString LineReader

/-- What a line asks for. -/
inductive Directive where
  | opens (name : Bytes)
  | sets (key value : Bytes)
  /-- It has no closing bracket or no equals sign. -/
  | junk
deriving DecidableEq

/-- The directive of a line that is not blank. -/
def directiveOf (s : Bytes) : Directive :=
  if s.head? = some (chr '[') then
    match strchr (chr ']') s with
    | none => .junk
    | some (before, _) => .opens (trim before.tail)
  else
    match strchr (chr '=') s with
    | none => .junk
    | some (before, after) => .sets (trim before) (trim after)

def directive (line : Bytes) : Option Directive :=
  if lineText line = [] then none else some (directiveOf (lineText line))

/-- What a file says. -/
def directives (contents : Bytes) : List Directive :=
  records newline (iniLineMax - 1) directive contents

def IniSection.directives (sec : IniSection) : List Directive :=
  .opens sec.name :: sec.pairs.map fun pair ↦ .sets pair.key pair.value

/-- The directives that build a store. -/
def Ini.directives (ini : Ini) : List Directive := ini.sections.flatMap IniSection.directives

/-! ## Well-formed stores -/

/-- No terminator, no newline and no comment sign. -/
def isPlain (b : UInt8) : Bool := b ≠ 0 && b ≠ newline && !isComment b

/-- A text that stands for itself. -/
@[mk_iff] structure Plain (s : Bytes) : Prop where
  bytes : s.all isPlain = true
  stripped : s.Stripped isspace

@[mk_iff] structure IniPair.WellFormed (pair : IniPair) : Prop where
  key : Plain pair.key
  value : Plain pair.value
  nonempty : pair.key ≠ []
  equals : chr '=' ∉ pair.key
  bracket : pair.key.head? ≠ some (chr '[')
  key_short : pair.key.length < iniMaxLen
  value_short : pair.value.length < iniMaxLen

@[mk_iff] structure IniSection.WellFormed (sec : IniSection) : Prop where
  name : Plain sec.name
  nonempty : sec.name ≠ []
  bracket : chr ']' ∉ sec.name
  short : sec.name.length < iniMaxLen
  few : sec.pairs.length ≤ iniMaxKeys
  distinct : (sec.pairs.map IniPair.key).Nodup
  pairs : ∀ pair ∈ sec.pairs, pair.WellFormed

@[mk_iff] structure Ini.WellFormed (ini : Ini) : Prop where
  few : ini.sections.length ≤ iniMaxSections
  distinct : (ini.sections.map IniSection.name).Nodup
  sections : ∀ sec ∈ ini.sections, sec.WellFormed

instance : DecidablePred Plain := fun s ↦ decidable_of_iff' _ (plain_iff s)

instance : DecidablePred IniPair.WellFormed :=
  fun pair ↦ decidable_of_iff' _ (IniPair.wellFormed_iff pair)

instance : DecidablePred IniSection.WellFormed :=
  fun sec ↦ decidable_of_iff' _ (IniSection.wellFormed_iff sec)

instance : DecidablePred Ini.WellFormed := fun ini ↦ decidable_of_iff' _ (Ini.wellFormed_iff ini)

theorem wellFormed_nil : Ini.WellFormed ⟨[]⟩ where
  few := Nat.zero_le _
  distinct := List.nodup_nil
  sections := by simp

theorem nodup_map_concat {α β : Type*} {f : α → β} {l : List α} {a : α} :
    ((l ++ [a]).map f).Nodup ↔ (l.map f).Nodup ∧ ∀ b ∈ l, f b ≠ f a := by
  rw [List.map_append, List.map_singleton, List.nodup_append]
  constructor
  · rintro ⟨hl, -, hne⟩
    exact ⟨hl, fun b hb ↦ hne _ (List.mem_map_of_mem hb) _ (List.mem_singleton_self _)⟩
  · rintro ⟨hl, hne⟩
    refine ⟨hl, List.nodup_singleton _, ?_⟩
    intro x hx y hy
    obtain ⟨b, hb, rfl⟩ := List.mem_map.mp hx
    obtain rfl := List.mem_singleton.mp hy
    exact hne b hb

theorem wellFormed_concat {closed : List IniSection} {cur : IniSection} :
    Ini.WellFormed ⟨closed ++ [cur]⟩ ↔ Ini.WellFormed ⟨closed⟩ ∧ closed.length < iniMaxSections ∧
      (∀ sec ∈ closed, sec.name ≠ cur.name) ∧ cur.WellFormed := by
  have hlen : (closed ++ [cur]).length = closed.length + 1 := List.length_append
  constructor
  · rintro ⟨hfew, hdistinct, hsections⟩
    obtain ⟨hdistinct, hfresh⟩ := nodup_map_concat.mp hdistinct
    rw [hlen] at hfew
    rw [List.forall_mem_append] at hsections
    exact ⟨⟨Nat.le_of_lt hfew, hdistinct, hsections.1⟩, hfew, hfresh, hsections.2 cur (by simp)⟩
  · rintro ⟨⟨hfew, hdistinct, hsections⟩, hroom, hfresh, hcur⟩
    refine ⟨hlen ▸ hroom, nodup_map_concat.mpr ⟨hdistinct, hfresh⟩, ?_⟩
    rw [List.forall_mem_append]
    exact ⟨hsections, by simpa using hcur⟩

theorem IniSection.wellFormed_concat {name : Bytes} {pairs : List IniPair} {pair : IniPair} :
    IniSection.WellFormed ⟨name, pairs ++ [pair]⟩ ↔ IniSection.WellFormed ⟨name, pairs⟩ ∧
      pairs.length < iniMaxKeys ∧ (∀ p ∈ pairs, p.key ≠ pair.key) ∧ pair.WellFormed := by
  have hlen : (pairs ++ [pair]).length = pairs.length + 1 := List.length_append
  constructor
  · rintro ⟨hname, hnonempty, hbracket, hshort, hfew, hdistinct, hpairs⟩
    obtain ⟨hdistinct, hfresh⟩ := nodup_map_concat.mp hdistinct
    simp only [hlen] at hfew
    simp only [List.forall_mem_append] at hpairs
    exact ⟨⟨hname, hnonempty, hbracket, hshort, Nat.le_of_lt hfew, hdistinct, hpairs.1⟩, hfew,
      hfresh, hpairs.2 pair (by simp)⟩
  · rintro ⟨⟨hname, hnonempty, hbracket, hshort, hfew, hdistinct, hpairs⟩, hroom, hfresh, hpair⟩
    refine ⟨hname, hnonempty, hbracket, hshort, hlen ▸ hroom,
      nodup_map_concat.mpr ⟨hdistinct, hfresh⟩, ?_⟩
    simp only [List.forall_mem_append]
    exact ⟨hpairs, by simpa using hpair⟩

/-! ## The text of a line

Comments, terminators and blanks are gone from the text of a line, in that order of the source.
Taken together that is one prefix, trimmed, which is how it is used. -/

theorem lineText_eq (line : Bytes) :
    lineText line = trim (line.takeWhile fun b ↦ !isComment b ∧ decide (b ≠ 0)) := by
  rw [lineText, stripComment, cstring, List.takeWhile_takeWhile]

private theorem lineText_comment (u : Bytes) {c : Bytes} (hc : ∀ b ∈ c.head?, isComment b = true) :
    lineText (u ++ c) = lineText u := by
  have hnone : c.takeWhile (fun b ↦ !isComment b ∧ decide (b ≠ 0)) = [] := by
    cases c with
    | nil => rfl
    | cons b c => exact List.takeWhile_cons_of_neg (by simp [hc b rfl])
  rw [lineText_eq, lineText_eq, List.takeWhile_append, hnone, List.append_nil]
  split_ifs with hlen
  · rw [(List.takeWhile_prefix _).eq_of_length hlen]
  · rfl

theorem lineText_space (u : Bytes) {b : UInt8} (hb : isspace b = true) :
    lineText (u ++ [b]) = lineText u := by
  rw [lineText_eq, lineText_eq, List.takeWhile_append]
  split_ifs with hlen
  · rw [(List.takeWhile_prefix _).eq_of_length hlen, List.takeWhile_cons]
    split_ifs
    · exact List.strip_concat hb
    · rw [List.append_nil]
  · rfl

private theorem isPlain_iff {b : UInt8} :
    isPlain b = true ↔ b ≠ 0 ∧ b ≠ newline ∧ isComment b = false := by
  simp [isPlain, and_assoc]

theorem Plain.of_mem {s : Bytes} (h : Plain s) {b : UInt8} (hb : b ∈ s) : isPlain b = true :=
  List.all_eq_true.mp h.bytes b hb

private theorem plain_trim {s : Bytes} (h : ∀ b ∈ s, isPlain b = true) : Plain (trim s) where
  bytes := List.all_eq_true.mpr fun b hb ↦ h b (List.mem_of_mem_strip hb)
  stripped := List.stripped_strip s

theorem Plain.lineText_eq {s : Bytes} (h : Plain s) : lineText s = s := by
  have hself : s.takeWhile (fun b ↦ !isComment b ∧ decide (b ≠ 0)) = s := by
    rw [List.takeWhile_eq_self_iff]
    intro b hb
    obtain ⟨hnul, -, hcomment⟩ := isPlain_iff.mp (h.of_mem hb)
    simp [hnul, hcomment]
  rw [SparseCamera.lineText_eq, hself, trim, h.stripped.strip_eq]

private theorem plain_lineText {line : Bytes} (hline : newline ∉ line) : Plain (lineText line) := by
  rw [lineText_eq]
  refine plain_trim ?_
  intro b hb
  have hmem := (List.takeWhile_prefix _).subset hb
  have hb := List.mem_takeWhile_imp hb
  simp only [Bool.not_eq_true', decide_eq_true_eq] at hb
  exact isPlain_iff.mpr ⟨hb.2, fun hnl ↦ hline (hnl ▸ hmem), hb.1⟩

/-- What a directive can carry, whatever the file. -/
def Directive.Clean : Directive → Prop
  | opens name => Plain name ∧ chr ']' ∉ name
  | sets key value =>
    Plain key ∧ Plain value ∧ chr '=' ∉ key ∧ key.head? ≠ some (chr '[')
  | junk => True

private theorem clean_directiveOf {s : Bytes} (h : Plain s) : (directiveOf s).Clean := by
  rw [directiveOf]
  split_ifs with hhead
  · split
    · trivial
    · next before after hsplit =>
      obtain ⟨hnot, rfl⟩ := strchr_eq_some.mp hsplit
      have hsub {b : UInt8} (hb : b ∈ before.tail) : b ∈ before := List.mem_of_mem_tail hb
      refine ⟨plain_trim fun b hb ↦ h.of_mem (List.mem_append_left _ (hsub hb)), fun hmem ↦ ?_⟩
      exact hnot (hsub (List.mem_of_mem_strip hmem))
  · split
    · trivial
    · next before after hsplit =>
      obtain ⟨hnot, rfl⟩ := strchr_eq_some.mp hsplit
      refine ⟨plain_trim fun b hb ↦ h.of_mem (List.mem_append_left _ hb),
        plain_trim fun b hb ↦ h.of_mem (by simp [hb]), fun hmem ↦ ?_, ?_⟩
      · exact hnot (List.mem_of_mem_strip hmem)
      -- a key begins as its line does
      · cases before with
        | nil => simp [trim, List.strip]
        | cons b before =>
          have hb : isspace b = false := h.stripped.head (by simp)
          rw [trim, List.head?_strip hb]
          exact hhead

theorem directive_newline (u : Bytes) : directive (u ++ [newline]) = directive u := by
  rw [directive, directive, lineText_space u rfl]

theorem directive_nil : directive [] = none := rfl

theorem directive_comment (u : Bytes) {c : Bytes} (hc : ∀ b ∈ c.head?, isComment b = true) :
    directive (u ++ c) = directive u := by
  rw [directive, directive, lineText_comment u hc]

theorem clean_directive {contents line : Bytes} (h : line ∈ iniPieces contents) :
    ∀ d ∈ directive line, d.Clean := by
  obtain ⟨u, hu, hline⟩ := exists_of_mem_pieces (by decide) h
  have hdirective : directive line = directive u := by
    rcases hline with rfl | rfl
    · rfl
    · exact directive_newline u
  rw [hdirective, directive]
  split_ifs
  · rintro d ⟨⟩
  · rintro d ⟨⟩
    exact clean_directiveOf (plain_lineText hu)

end SparseCamera
