import SparseCamera.Ini.Grammar

/-!
# What `ini_load` accepts

The loop takes one piece after another. What it does with a piece depends on the directive only
(`line_eq_ok_iff`), and the last directive of a store is the last thing that was done to it. So
`ini_load` accepts a file exactly when its directives are those of a well-formed store, and this
store is what it loads (`iniLoad_ok_iff`).

## The invariant

`IniReader.Says` holds at every piece: the store so far is well formed, and its directives are those
of the pieces that were read. A piece either adds its directive at the end or is rejected. Read
backwards, a well-formed store without its last directive is a well-formed store again, and that is
why every file with the directives of a well-formed store is accepted.
-/

namespace SparseCamera

open CString LineReader

/-! ## One line

Every complaint of the source about a line is the failure of one condition of `Takes`, and a line
that meets all of them is taken. -/

/-- What a line with this directive does to a store that can take it. -/
inductive IniReader.Takes : IniReader → Option Directive → IniReader → Prop where
  | blank {st : IniReader} : Takes st none st
  | opens {st : IniReader} {name : Bytes} (nonempty : name ≠ []) (short : name.length < iniMaxLen)
      (fresh : ∀ sec ∈ st.sections, sec.name ≠ name) (room : st.sections.length < iniMaxSections) :
    Takes st (some (.opens name)) (.within st.sections { name := name, pairs := [] })
  | sets {closed : List IniSection} {cur : IniSection} {key value : Bytes} (nonempty : key ≠ [])
      (key_short : key.length < iniMaxLen) (value_short : value.length < iniMaxLen)
      (fresh : ∀ pair ∈ cur.pairs, pair.key ≠ key) (room : cur.pairs.length < iniMaxKeys) :
    Takes (.within closed cur) (some (.sets key value))
      (.within closed { cur with pairs := cur.pairs ++ [{ key := key, value := value }] })

theorem findSection_isSome {sections : List IniSection} {name : Bytes} :
    (findSection sections name).isSome = true ↔ ∃ sec ∈ sections, sec.name = name := by
  simp [findSection]

theorem openSection_eq_ok_iff {st st' : IniReader} {s : Bytes} :
    st.openSection s = .ok st' ↔ ∃ before after, strchr (chr ']') s = some (before, after) ∧
      st.Takes (some (.opens (trim before.tail))) st' := by
  rw [IniReader.openSection]
  cases strchr (chr ']') s with
  | none => exact iff_of_false (by simp) (by simp)
  | some parts =>
    obtain ⟨before, after⟩ := parts
    simp only [Option.some.injEq, Prod.mk.injEq]
    constructor
    · intro h
      split_ifs at h with hempty hlong hfound hroom
      obtain rfl := Except.ok.inj h
      rw [snprintf_of_lt (not_le.mp hlong)]
      refine ⟨before, after, ⟨rfl, rfl⟩, .opens hempty (not_le.mp hlong) ?_ (not_le.mp hroom)⟩
      exact fun sec hsec hname ↦ hfound (findSection_isSome.mpr ⟨sec, hsec, hname⟩)
    · rintro ⟨before, after, ⟨rfl, rfl⟩, htakes⟩
      cases htakes with
      | opens nonempty short fresh room =>
        have hfound : ¬(findSection st.sections (trim before.tail)).isSome = true := by
          rw [findSection_isSome]
          rintro ⟨sec, hsec, hname⟩
          exact fresh sec hsec hname
        rw [if_neg nonempty, if_neg (not_le.mpr short), if_neg hfound, if_neg (not_le.mpr room),
          snprintf_of_lt short]

theorem addPair_eq_ok_iff {st st' : IniReader} {s : Bytes} :
    st.addPair s = .ok st' ↔ ∃ before after, strchr (chr '=') s = some (before, after) ∧
      st.Takes (some (.sets (trim before) (trim after))) st' := by
  rw [IniReader.addPair.eq_def]
  cases strchr (chr '=') s with
  | none => exact iff_of_false (by simp) (by simp)
  | some parts =>
    obtain ⟨before, after⟩ := parts
    simp only [Option.some.injEq, Prod.mk.injEq]
    constructor
    · intro h
      -- the key is looked at before it is known whether there is a section
      have hempty : trim before ≠ [] := by
        intro hempty
        rw [if_pos hempty] at h
        cases h
      rw [if_neg hempty] at h
      cases st with
      | empty => cases h
      | within closed cur =>
        simp only at h
        split_ifs at h with hlong hfound hroom
        obtain rfl := Except.ok.inj h
        rw [not_or, not_le, not_le] at hlong
        rw [snprintf_of_lt hlong.1, snprintf_of_lt hlong.2]
        refine ⟨before, after, ⟨rfl, rfl⟩, .sets hempty hlong.1 hlong.2 ?_ (not_le.mp hroom)⟩
        exact fun pair hpair hkey ↦
          hfound (List.any_eq_true.mpr ⟨pair, hpair, decide_eq_true hkey⟩)
    · rintro ⟨before, after, ⟨rfl, rfl⟩, htakes⟩
      cases htakes with
      | @sets closed cur _ _ nonempty key_short value_short fresh room =>
        have hlong : ¬(iniMaxLen ≤ (trim before).length ∨ iniMaxLen ≤ (trim after).length) := by
          omega
        have hfound : ¬(cur.pairs.any fun pair ↦ decide (pair.key = trim before)) = true := by
          rw [List.any_eq_true]
          rintro ⟨pair, hpair, hkey⟩
          exact fresh pair hpair (of_decide_eq_true hkey)
        simp only
        rw [if_neg nonempty, if_neg hlong, if_neg hfound, if_neg (not_le.mpr room),
          snprintf_of_lt key_short, snprintf_of_lt value_short]

/-- The loop body does what the directive of the line says, if that can be done. -/
theorem line_eq_ok_iff {st st' : IniReader} {line : Bytes} :
    st.line line = .ok st' ↔ st.Takes (directive line) st' := by
  rw [directive, IniReader.line]
  cases lineText line with
  | nil =>
    rw [if_pos rfl]
    constructor
    · intro h
      obtain rfl := Except.ok.inj h
      exact .blank
    · rintro ⟨⟩
      rfl
  | cons b s =>
    have hjunk : ¬st.Takes (some .junk) st' := by
      rintro ⟨⟩
    rw [if_neg (List.cons_ne_nil b s), directiveOf, List.head?_cons]
    simp only [Option.some.injEq]
    split_ifs with hb
    · rw [openSection_eq_ok_iff]
      cases strchr (chr ']') (b :: s) with
      | none => exact iff_of_false (by simp) hjunk
      | some parts =>
        obtain ⟨before, after⟩ := parts
        simp
    · rw [addPair_eq_ok_iff]
      cases strchr (chr '=') (b :: s) with
      | none => exact iff_of_false (by simp) hjunk
      | some parts =>
        obtain ⟨before, after⟩ := parts
        simp

/-! ## The whole file

The induction is on the pieces from the end. A step looks at the last directive only, which is where
a store has room to grow. -/

/-- The store so far is well formed, and these directives have built it. -/
def IniReader.Says (st : IniReader) (ds : List Directive) : Prop :=
  Ini.WellFormed ⟨st.sections⟩ ∧ ds = Ini.directives ⟨st.sections⟩

theorem directives_concat (closed : List IniSection) (cur : IniSection) :
    Ini.directives ⟨closed ++ [cur]⟩ = Ini.directives ⟨closed⟩ ++ cur.directives := by
  simp [Ini.directives]

theorem IniSection.directives_concat (name : Bytes) (pairs : List IniPair) (pair : IniPair) :
    IniSection.directives ⟨name, pairs ++ [pair]⟩
      = IniSection.directives ⟨name, pairs⟩ ++ [.sets pair.key pair.value] := by
  simp [IniSection.directives]

private theorem exists_sections (sections : List IniSection) :
    ∃ st : IniReader, st.sections = sections := by
  induction sections using List.reverseRecOn with
  | nil => exact ⟨.empty, rfl⟩
  | append_singleton closed cur _ => exact ⟨.within closed cur, rfl⟩

theorem IniReader.Says.takes {st st' : IniReader} {ds : List Directive} {d : Option Directive}
    (hclean : ∀ d' ∈ d, d'.Clean) (h : st.Says ds) (htakes : st.Takes d st') :
    st'.Says (ds ++ d.toList) := by
  obtain ⟨hwell, rfl⟩ := h
  cases htakes with
  | blank => exact ⟨hwell, List.append_nil _⟩
  | @opens _ name nonempty short fresh room =>
    obtain ⟨hplain, hbracket⟩ := hclean _ rfl
    refine ⟨wellFormed_concat.mpr ⟨hwell, room, fresh, ?_⟩, ?_⟩
    · exact ⟨hplain, nonempty, hbracket, short, Nat.zero_le _, List.nodup_nil, by simp⟩
    · rw [IniReader.sections, directives_concat]
      rfl
  | @sets closed cur key value nonempty key_short value_short fresh room =>
    obtain ⟨hkey, hvalue, hequals, hbracket⟩ := hclean _ rfl
    obtain ⟨hclosed, hroom, hfresh, hcur⟩ := wellFormed_concat.mp hwell
    refine ⟨wellFormed_concat.mpr ⟨hclosed, hroom, hfresh, ?_⟩, ?_⟩
    · exact IniSection.wellFormed_concat.mpr ⟨hcur, room, fresh,
        hkey, hvalue, nonempty, hequals, hbracket, key_short, value_short⟩
    · rw [IniReader.sections, directives_concat, IniReader.sections, directives_concat,
        List.append_assoc, IniSection.directives_concat]
      rfl

theorem IniReader.Says.of_concat {st' : IniReader} {ds : List Directive} {d : Directive}
    (h : st'.Says (ds ++ [d])) : ∃ st : IniReader, st.Says ds ∧ st.Takes (some d) st' := by
  obtain ⟨hwell, hds⟩ := h
  cases st' with
  | empty => simp [IniReader.sections, Ini.directives] at hds
  | within closed cur =>
    obtain ⟨hclosed, hroom, hfresh, hcur⟩ := wellFormed_concat.mp hwell
    obtain ⟨name, pairs⟩ := cur
    rw [IniReader.sections, directives_concat] at hds
    -- the section was just opened, or its last pair was just added
    induction pairs using List.reverseRecOn with
    | nil =>
      obtain ⟨rfl, hd⟩ := List.append_inj' hds rfl
      obtain rfl := List.head_eq_of_cons_eq hd
      obtain ⟨st, rfl⟩ := exists_sections closed
      exact ⟨st, ⟨hclosed, rfl⟩, .opens hcur.nonempty hcur.short hfresh hroom⟩
    | append_singleton pairs pair _ =>
      obtain ⟨hcur, hpairs, hother, hpair⟩ := IniSection.wellFormed_concat.mp hcur
      rw [IniSection.directives_concat, ← List.append_assoc] at hds
      obtain ⟨rfl, hd⟩ := List.append_inj' hds rfl
      obtain rfl := List.head_eq_of_cons_eq hd
      refine ⟨.within closed ⟨name, pairs⟩,
        ⟨wellFormed_concat.mpr ⟨hclosed, hroom, hfresh, hcur⟩, ?_⟩, ?_⟩
      · exact (directives_concat _ _).symm
      · exact .sets hpair.nonempty hpair.key_short hpair.value_short hother hpairs

private theorem lines_concat {st st' : IniReader} {lineno : ℕ} {lines : List Bytes} {line : Bytes} :
    st.lines lineno (lines ++ [line]) = .ok st' ↔
      ∃ st₁, st.lines lineno lines = .ok st₁ ∧ st₁.line line = .ok st' := by
  induction lines generalizing st lineno with
  | nil =>
    simp only [List.nil_append, IniReader.lines, Except.ok.injEq, exists_eq_left']
    cases st.line line with
    | error what => simp
    | ok st₁ => simp
  | cons first lines ih =>
    rw [List.cons_append, IniReader.lines, IniReader.lines]
    cases st.line first with
    | error what => simp
    | ok st₁ => exact ih

/-- The loop reads a well-formed store whose directives are those of the lines, and reads every such
store. -/
theorem lines_eq_ok_iff {lines : List Bytes}
    (hclean : ∀ line ∈ lines, ∀ d ∈ directive line, d.Clean) (lineno : ℕ) (st : IniReader) :
    IniReader.empty.lines lineno lines = .ok st ↔ st.Says (lines.filterMap directive) := by
  induction lines using List.reverseRecOn generalizing st with
  | nil =>
    constructor
    · intro h
      obtain rfl := Except.ok.inj h
      exact ⟨wellFormed_nil, rfl⟩
    · rintro ⟨-, hds⟩
      cases st with
      | empty => rfl
      | within closed cur =>
        rw [IniReader.sections, directives_concat] at hds
        simp [IniSection.directives] at hds
  | append_singleton lines line ih =>
    have ih := ih fun line' h ↦ hclean line' (List.mem_append_left _ h)
    have hline := hclean line (by simp)
    have hlast : [line].filterMap directive = (directive line).toList := by
      rw [filterMap_cons_toList, List.filterMap_nil, List.append_nil]
    rw [lines_concat, List.filterMap_append, hlast]
    constructor
    · rintro ⟨st₀, hst₀, hstep⟩
      exact ((ih st₀).mp hst₀).takes hline (line_eq_ok_iff.mp hstep)
    · intro h
      cases hd : directive line with
      | none =>
        -- a blank line adds nothing
        rw [hd, Option.toList_none, List.append_nil] at h
        refine ⟨st, (ih st).mpr h, line_eq_ok_iff.mpr ?_⟩
        rw [hd]
        exact .blank
      | some d =>
        rw [hd] at h
        obtain ⟨st₀, hst₀, htakes⟩ := h.of_concat
        exact ⟨st₀, (ih st₀).mpr hst₀, line_eq_ok_iff.mpr (hd ▸ htakes)⟩

/-- **What `ini_load` loads**: the well-formed store with the directives of the file. -/
theorem iniLoad_ok_iff {fopen : Bytes → Except Bytes Bytes} {granted : Bool}
    {path : Option Bytes} {ini : Ini} :
    iniLoad fopen granted path = .ok ini ↔ granted = true ∧
      ∃ name contents, path = some name ∧ fopen name = .ok contents ∧
        ini.WellFormed ∧ directives contents = ini.directives := by
  have hread (contents : Bytes) (st : IniReader) :
      IniReader.empty.lines 0 (iniPieces contents) = .ok st ↔ st.Says (directives contents) :=
    lines_eq_ok_iff (fun _ h ↦ clean_directive h) 0 st
  rw [iniLoad_eq_ok_iff]
  constructor
  · rintro ⟨name, contents, st, hpath, hopen, hgranted, hlines, hsections⟩
    obtain ⟨hwell, hds⟩ := (hread contents st).mp hlines
    rw [← hsections] at hwell hds
    exact ⟨hgranted, name, contents, hpath, hopen, hwell, hds⟩
  · rintro ⟨hgranted, name, contents, hpath, hopen, hwell, hds⟩
    obtain ⟨sections⟩ := ini
    obtain ⟨st, rfl⟩ := exists_sections sections
    exact ⟨name, contents, st, hpath, hopen, hgranted, (hread contents st).mpr ⟨hwell, hds⟩, rfl⟩

end SparseCamera
