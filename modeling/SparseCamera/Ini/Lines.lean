import SparseCamera.Ini.Reader

/-!
# Nothing is skipped

A file whose lines fit the buffer is read line by line. What is left of a line without its comment
should be found in the store, all of it: the line spells out a directive, and the directives that
are spelled out are those of the store, in order. The loop has one way to lose text. It cuts a line
that opens a section at the closing bracket and does not look behind it, so a file is recorded in
full exactly when its section lines end there (`recorded_iff_tidy`).

## The construction

A directive `Spells` a text if the text is the directive and nothing else, up to blanks. For a key
and its value this always holds, since they are cut at the first `=` and both sides are kept. For a
section it holds if nothing follows the bracket. The comparison goes line by line along the two
lists of `Recorded`.
-/

namespace SparseCamera

open CString LineReader

/-- The lines of a file, without their ends. -/
def textLines (contents : Bytes) : List Bytes := contents.splitOn newline

def isBlank (s : Bytes) : Bool := s.all isspace

/-- The text is the directive and nothing else, up to blanks. -/
def Directive.Spells : Directive → Bytes → Prop
  | opens name, s => ∃ l m n r, isBlank l ∧ isBlank m ∧ isBlank n ∧ isBlank r ∧
      s = l ++ ascii "[" ++ m ++ name ++ n ++ ascii "]" ++ r
  | sets key value, s => ∃ l m n r, isBlank l ∧ isBlank m ∧ isBlank n ∧ isBlank r ∧
      s = l ++ key ++ m ++ ascii "=" ++ n ++ value ++ r
  | junk, _ => False

/-- What the lines say without their comments. -/
def lineTexts (lines : List Bytes) : List Bytes :=
  (lines.map stripComment).filter fun s ↦ !isBlank s

/-- The store has a directive for each line that is not blank, in order, and it is the whole
line. -/
def Recorded (contents : Bytes) (ini : Ini) : Prop :=
  List.Forall₂ (fun s d ↦ Directive.Spells d s) (lineTexts (textLines contents)) ini.directives

/-- If the line opens a section, nothing follows the closing bracket. -/
def Tidy (line : Bytes) : Prop :=
  (lineText line).head? = some (chr '[') →
    ∀ parts ∈ strchr (chr ']') (lineText line), isBlank parts.2 = true

/-! ## One line

What is lost is lost within a line. Here are the two cases, of a key and of a section, and the
trimming that both take for granted. -/

private theorem isBlank_iff {s : Bytes} : isBlank s = true ↔ ∀ b ∈ s, isspace b = true := by
  rw [isBlank, List.all_eq_true]

private theorem isBlank_append {s t : Bytes} :
    isBlank (s ++ t) = true ↔ isBlank s = true ∧ isBlank t = true := by
  rw [isBlank, List.all_append, Bool.and_eq_true, isBlank, isBlank]

private theorem isBlank_trim {s : Bytes} : trim s = [] ↔ isBlank s = true := by
  rw [trim, List.strip_eq_nil_iff, isBlank_iff]

private theorem exists_eq_trim (s : Bytes) :
    ∃ l r, isBlank l = true ∧ isBlank r = true ∧ s = l ++ trim s ++ r := by
  obtain ⟨l, r, hl, hr, hs⟩ := List.exists_eq_strip isspace s
  exact ⟨l, r, isBlank_iff.mpr hl, isBlank_iff.mpr hr, hs⟩

private theorem trim_append_append {l s r : Bytes} (hl : isBlank l = true) (hr : isBlank r = true) :
    trim (l ++ s ++ r) = trim s :=
  List.strip_append_append (isBlank_iff.mp hl) (isBlank_iff.mp hr)

private theorem notMem_of_isBlank {s : Bytes} {b : UInt8} (hs : isBlank s = true)
    (hb : isspace b = false) : b ∉ s := by
  intro hmem
  rw [isBlank_iff.mp hs b hmem] at hb
  cases hb

private theorem lineText_of_notMem {line : Bytes} (hnul : 0 ∉ line) :
    lineText line = trim (stripComment line) := by
  have hself : cstring line = line := by
    rw [cstring, List.takeWhile_eq_self_iff]
    intro b hb
    exact decide_eq_true fun hzero ↦ hnul (hzero ▸ hb)
  rw [lineText, hself]

private theorem spells_sets {s before after : Bytes} (hs : trim s = before ++ chr '=' :: after) :
    (Directive.sets (trim before) (trim after)).Spells s := by
  obtain ⟨l, r, hl, hr, hs'⟩ := exists_eq_trim s
  obtain ⟨l₁, m, hl₁, hm, hbefore⟩ := exists_eq_trim before
  obtain ⟨n, r₁, hn, hr₁, hafter⟩ := exists_eq_trim after
  refine ⟨l ++ l₁, m, n, r₁ ++ r, isBlank_append.mpr ⟨hl, hl₁⟩, hm, hn,
    isBlank_append.mpr ⟨hr₁, hr⟩, ?_⟩
  rw [hs] at hs'
  calc s = l ++ (before ++ chr '=' :: after) ++ r := hs'
    _ = l ++ ((l₁ ++ trim before ++ m) ++ chr '=' :: (n ++ trim after ++ r₁)) ++ r := by
      rw [← hbefore, ← hafter]
    _ = l ++ l₁ ++ trim before ++ m ++ ascii "=" ++ n ++ trim after ++ (r₁ ++ r) := by
      simp [ascii]

private theorem spells_opens {s before after : Bytes} (hnot : chr ']' ∉ before)
    (hhead : (trim s).head? = some (chr '['))
    (hs : trim s = before ++ chr ']' :: after) :
    (Directive.opens (trim before.tail)).Spells s ↔ isBlank after = true := by
  obtain ⟨l, r, hl, hr, hs'⟩ := exists_eq_trim s
  constructor
  · rintro ⟨l₁, m, n, r₁, hl₁, hm, hn, hr₁, hline⟩
    have hname : chr ']' ∉ trim before.tail :=
      fun h ↦ hnot (List.mem_of_mem_tail (List.mem_of_mem_strip h))
    -- without the blanks around it the line ends with its first bracket
    have hstripped : List.Stripped isspace
        (ascii "[" ++ (m ++ trim before.tail ++ n) ++ ascii "]") :=
      .surround ⟨fun _ ↦ rfl, fun _ ↦ rfl⟩ ⟨fun _ ↦ rfl, fun _ ↦ rfl⟩ (by decide) (by decide) _
    have hself : trim (ascii "[" ++ (m ++ trim before.tail ++ n) ++ ascii "]")
        = ascii "[" ++ (m ++ trim before.tail ++ n) ++ ascii "]" := hstripped.strip_eq
    have htrim : trim s = (ascii "[" ++ (m ++ trim before.tail ++ n)) ++ chr ']' :: [] :=
      calc trim s
          = trim (l₁ ++ (ascii "[" ++ (m ++ trim before.tail ++ n) ++ ascii "]") ++ r₁) := by
            rw [hline]
            simp only [List.append_assoc]
        _ = ascii "[" ++ (m ++ trim before.tail ++ n) ++ ascii "]" := by
            rw [trim_append_append hl₁ hr₁, hself]
    have hfirst : strchr (chr ']') (trim s)
        = some (ascii "[" ++ (m ++ trim before.tail ++ n), []) := by
      refine strchr_eq_some.mpr ⟨?_, htrim⟩
      rw [List.mem_append, List.mem_append, List.mem_append, not_or, not_or, not_or]
      exact ⟨by decide, ⟨notMem_of_isBlank hm rfl, hname⟩, notMem_of_isBlank hn rfl⟩
    rw [strchr_eq_some.mpr ⟨hnot, hs⟩, Option.some.injEq, Prod.mk.injEq] at hfirst
    rw [hfirst.2]
    rfl
  · intro hafter
    obtain ⟨m, n, hm, hn, hname⟩ := exists_eq_trim before.tail
    have hbefore : before = ascii "[" ++ before.tail := by
      cases before with
      | nil =>
        rw [hs] at hhead
        cases hhead
      | cons b before =>
        rw [hs] at hhead
        obtain rfl := Option.some.inj hhead
        rfl
    refine ⟨l, m, n, after ++ r, hl, hm, hn, isBlank_append.mpr ⟨hafter, hr⟩, ?_⟩
    rw [hs] at hs'
    calc s = l ++ (before ++ chr ']' :: after) ++ r := hs'
      _ = l ++ (ascii "[" ++ (m ++ trim before.tail ++ n) ++ chr ']' :: after) ++ r := by
        rw [← hname, ← hbefore]
      _ = l ++ ascii "[" ++ m ++ trim before.tail ++ n ++ ascii "]" ++ (after ++ r) := by
        simp [ascii]

/-- The directive of a line is the whole line exactly when the line is tidy. -/
theorem spells_iff_tidy {line : Bytes} {d : Directive} (hnul : 0 ∉ line)
    (hd : directive line = some d) (hjunk : d ≠ .junk) :
    d.Spells (stripComment line) ↔ Tidy line := by
  have htext := lineText_of_notMem hnul
  rw [directive] at hd
  split_ifs at hd with hne
  obtain rfl := Option.some.inj hd
  rw [Tidy, htext] at *
  rw [directiveOf] at hjunk ⊢
  split_ifs at hjunk ⊢ with hhead
  · cases hsplit : strchr (chr ']') (trim (stripComment line)) with
    | none => simp [hsplit] at hjunk
    | some parts =>
      obtain ⟨before, after⟩ := parts
      obtain ⟨hnot, hs⟩ := strchr_eq_some.mp hsplit
      simp only
      rw [spells_opens hnot hhead hs]
      simp [hhead]
  · cases hsplit : strchr (chr '=') (trim (stripComment line)) with
    | none => simp [hsplit] at hjunk
    | some parts =>
      obtain ⟨before, after⟩ := parts
      exact iff_of_true (spells_sets (strchr_eq_some.mp hsplit).2) fun h ↦ absurd h hhead

/-! ## The whole file -/

/-- A file whose lines fit the buffer is read line by line. -/
theorem directives_textLines {contents : Bytes}
    (hfits : ∀ line ∈ textLines contents, line.length ≤ iniLineMax - 1) :
    directives contents = (textLines contents).filterMap directive :=
  records_splitOn (fun u _ ↦ directive_newline u) directive_nil (by decide) hfits

private theorem junk_notMem_directives (ini : Ini) : .junk ∉ ini.directives := by
  rw [Ini.directives, List.mem_flatMap]
  rintro ⟨sec, -, hsec⟩
  simp [IniSection.directives] at hsec

private theorem forall₂_spells_iff {lines : List Bytes} (hnul : ∀ line ∈ lines, 0 ∉ line)
    (hjunk : .junk ∉ lines.filterMap directive) :
    List.Forall₂ (fun s d ↦ Directive.Spells d s) (lineTexts lines) (lines.filterMap directive) ↔
      ∀ line ∈ lines, Tidy line := by
  induction lines with
  | nil => simp [lineTexts]
  | cons line lines ih =>
    rw [List.forall_mem_cons] at hnul
    have htext := lineText_of_notMem hnul.1
    rw [List.forall_mem_cons, lineTexts, List.map_cons]
    by_cases hblank : isBlank (stripComment line) = true
    · -- a blank line has no directive, and it is tidy
      have hempty : lineText line = [] := htext.trans (isBlank_trim.mpr hblank)
      have hnone : directive line = none := by
        rw [directive, if_pos hempty]
      have htidy : Tidy line := by
        intro hhead
        rw [hempty] at hhead
        cases hhead
      rw [List.filterMap_cons_none hnone] at hjunk ⊢
      rw [List.filter_cons_of_neg (by simp [hblank]), ← lineTexts, ih hnul.2 hjunk]
      exact ⟨fun h ↦ ⟨htidy, h⟩, fun h ↦ h.2⟩
    · have hne : lineText line ≠ [] := by
        rw [htext]
        exact fun h ↦ hblank (isBlank_trim.mp h)
      have hsome : directive line = some (directiveOf (lineText line)) := by
        rw [directive, if_neg hne]
      rw [List.filterMap_cons_some hsome, List.mem_cons, not_or] at hjunk
      rw [List.filterMap_cons_some hsome, List.filter_cons_of_pos (by simp [hblank]),
        List.forall₂_cons, ← lineTexts, ih hnul.2 hjunk.2,
        spells_iff_tidy hnul.1 hsome (Ne.symm hjunk.1)]

/-- **What `ini_load` skips.** A file without NUL whose lines fit the buffer, and that is accepted,
is recorded line for line exactly when no section line goes on behind its closing bracket. -/
theorem recorded_iff_tidy {fopen : Bytes → Except Bytes Bytes} {granted : Bool}
    {path contents : Bytes} {ini : Ini} (hopen : fopen path = .ok contents) (hnul : 0 ∉ contents)
    (hshort : ∀ line ∈ textLines contents, line.length < 511)
    (hload : iniLoad fopen granted (some path) = .ok ini) :
    Recorded contents ini ↔ ∀ line ∈ textLines contents, Tidy line := by
  have hfits : ∀ line ∈ textLines contents, line.length ≤ iniLineMax - 1 :=
    fun line hline ↦ Nat.le_of_lt (hshort line hline)
  obtain ⟨-, _, contents', ⟨⟩, hopen', -, hds⟩ := iniLoad_ok_iff.mp hload
  obtain rfl := Except.ok.inj (hopen.symm.trans hopen')
  rw [directives_textLines hfits] at hds
  rw [Recorded, ← hds]
  refine forall₂_spells_iff ?_ ?_
  · intro line hline hmem
    exact hnul (mem_of_mem_splitOn hline hmem)
  · rw [hds]
    exact junk_notMem_directives ini

theorem recorded_iff_tidy_pair :
    Recorded (ascii "[a] # w\nk = v\n") ⟨[⟨ascii "a", [⟨ascii "k", ascii "v"⟩]⟩]⟩ := by
  have hlines : textLines (ascii "[a] # w\nk = v\n") = [ascii "[a] # w", ascii "k = v", []] := by
    decide +kernel
  refine (@recorded_iff_tidy (fun _ ↦ .ok _) true [] _ _ rfl (by decide) ?_
    (by decide +kernel)).mpr ?_
  · rw [hlines]
    simp [ascii]
  · rw [hlines, List.forall_mem_cons, List.forall_mem_cons, List.forall_mem_singleton]
    refine ⟨?_, ?_, ?_⟩
    · rintro - parts ⟨⟩
      rfl
    · rintro ⟨⟩
    · rintro ⟨⟩

/-- **A setting behind a bracket does nothing.** The file is accepted, and the setting is not in the
store. -/
theorem recorded_bracket :
    0 ∉ ascii "[sink] tol = 2\n" ∧
      (∀ line ∈ textLines (ascii "[sink] tol = 2\n"), line.length < 511) ∧
      iniLoad (fun _ ↦ .ok (ascii "[sink] tol = 2\n")) true (some [])
        = .ok ⟨[⟨ascii "sink", []⟩]⟩ ∧
      ¬Recorded (ascii "[sink] tol = 2\n") ⟨[⟨ascii "sink", []⟩]⟩ := by
  have hlines : textLines (ascii "[sink] tol = 2\n") = [ascii "[sink] tol = 2", []] := by
    decide +kernel
  have htexts : lineTexts [ascii "[sink] tol = 2", []] = [ascii "[sink] tol = 2"] := by
    decide +kernel
  refine ⟨by decide, ?_, by decide +kernel, ?_⟩
  · rw [hlines]
    simp [ascii]
  · intro h
    rw [Recorded, hlines, htexts] at h
    obtain ⟨hspells, -⟩ := List.forall₂_cons.mp h
    have hblank := (@spells_opens (ascii "[sink] tol = 2") (ascii "[sink") (ascii " tol = 2")
      (by decide) (by decide +kernel) (by decide +kernel)).mp hspells
    revert hblank
    decide +kernel

end SparseCamera
