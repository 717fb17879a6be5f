import SparseCamera.Ini.Unsigned
import SparseCamera.Lib.CharArray

/-!
# Lookups that write

`ini_get_u32` and `ini_get_f64` hand the end of the number they read to `trim`, and `trim` writes a
terminator. The end of the number is a pointer into the store. Here the store holds its texts in
arrays, as it does in memory, and a lookup yields the store it leaves.

Nothing changes, because of what `ini_load` stored: no value ends in a blank. What a conversion
leaves unread is an end of the value, so it does not end in a blank either, and `trim` writes the
terminator where it stands.

## The invariant

For a well-formed store nothing changes, so the invariant of a run is that the store is the one that
was loaded (`after_arrays`). What needs proof is one lookup. `IniOutcome.Harmless` says of it that
the answer is the one of the text level, that the byte it wrote, if it wrote one, was a terminator
before, and that the store is the same.
-/

namespace SparseCamera

open CString

/-! ## The store in memory -/

/-- `ini_pair_t`, its texts in their arrays. -/
structure PairArrays where
  key : Bytes
  value : Bytes
deriving DecidableEq

/-- `ini_section_t`. -/
structure SectionArrays where
  name : Bytes
  pairs : List PairArrays
deriving DecidableEq

/-- `ini_t`. -/
structure IniArrays where
  sections : List SectionArrays
deriving DecidableEq

def IniPair.arrays (pair : IniPair) : PairArrays where
  key := charArray iniMaxLen pair.key
  value := charArray iniMaxLen pair.value

def IniSection.arrays (sec : IniSection) : SectionArrays where
  name := charArray iniMaxLen sec.name
  pairs := sec.pairs.map IniPair.arrays

def Ini.arrays (ini : Ini) : IniArrays := ⟨ini.sections.map IniSection.arrays⟩

/-- `ini_load`, with what it leaves in memory. -/
def iniLoadArrays (fopen : Bytes → Except Bytes Bytes) (granted : Bool) (path : Option Bytes) :
    Except IniErr IniArrays :=
  (iniLoad fopen granted path).map Ini.arrays

/-- A value in the store: its section and its place there. -/
abbrev ValueRef := ℕ × ℕ

def IniArrays.pairs (store : IniArrays) (i : ℕ) : List PairArrays :=
  (store.sections[i]?.map SectionArrays.pairs).getD []

def IniArrays.value (store : IniArrays) (p : ValueRef) : Bytes :=
  ((store.pairs p.1)[p.2]?.map PairArrays.value).getD []

/-- The store with another array in the place of one of its values. -/
def IniArrays.setValue (store : IniArrays) (p : ValueRef) (a : Bytes) : IniArrays where
  sections := store.sections.modify p.1 fun sec ↦ { sec with
    pairs := sec.pairs.modify p.2 fun pair ↦ { pair with value := a } }

/-! ## Trimming in place

`trim` moves two pointers and writes one byte. The pointers are positions here, and the second
loop is a recursion on where the text ends. -/

/-- The first loop of `trim`, past the blanks. -/
def skipBlanks (a : Bytes) (s : ℕ) : ℕ := s + ((a.drop s).takeWhile isspace).length

/-- The second loop of `trim`, back over the blanks before `end` but not past `s`. -/
def dropBlanks (a : Bytes) (s : ℕ) : ℕ → ℕ
  | 0 => 0
  | last + 1 =>
    if s < last + 1 ∧ isspace (a.getD last 0) = true then dropBlanks a s last else last + 1

/-- Where `trim` says the text begins, and where it writes the terminator. -/
def trimSpan (a : Bytes) (s : ℕ) : ℕ × ℕ :=
  let s := skipBlanks a s
  (s, dropBlanks a s (s + strlen a s))

/-- `trim`: where the text begins, and the array afterwards. -/
def trimAt (a : Bytes) (s : ℕ) : ℕ × Bytes := ((trimSpan a s).1, a.set (trimSpan a s).2 0)

/-! ## Lookups -/

/-- `find_section`; `none` is the null pointer. -/
def findSectionAt (store : IniArrays) (name : Option Bytes) : Option ℕ :=
  name.bind fun name ↦ store.sections.findIdx? fun sec ↦ textAt sec.name 0 = name

/-- `ini_get`: the value it points to. -/
def iniGetAt (store : IniArrays) (name key : Option Bytes) : Option ValueRef :=
  (findSectionAt store name).bind fun i ↦ key.bind fun key ↦
    ((store.pairs i).findIdx? fun pair ↦ textAt pair.key 0 = key).map fun j ↦ (i, j)

/-- What a lookup yields, where it wrote a terminator, and the store afterwards. -/
structure IniOutcome (α : Type) where
  result : α
  wrote : Option (ValueRef × ℕ)
  store : IniArrays

/-- A lookup that only reads the value. -/
def iniReadAt {α : Type} (store : IniArrays) (name key : Option Bytes) (dflt : α)
    (read : Bytes → Except Bytes α) : IniOutcome (Except ConfErr α) where
  result :=
    match iniGetAt store name key with
    | none => .ok dflt
    | some p =>
      (read (textAt (store.value p) 0)).mapError (.atKey (name.getD []) (key.getD []))
  wrote := none
  store := store

/-- A lookup that converts the value to a number and trims what the conversion left. -/
def iniConvertAt {α β : Type} (convert : Bytes → Option (Converted α))
    (outside : Converted α → Bool) (cast : α → β) (complaint : Bytes) (store : IniArrays)
    (name key : Option Bytes) (dflt : β) : IniOutcome (Except ConfErr β) :=
  match iniGetAt store name key with
  | none => ⟨.ok dflt, none, store⟩
  | some p =>
    let raw := textAt (store.value p) 0
    let bad (store : IniArrays) := .error (.atKey (name.getD []) (key.getD [])
      (quoted (textAt (store.value p) 0) ++ complaint))
    match convert raw with
    | none => ⟨bad store, none, store⟩
    | some v =>
      -- the end pointer is as far in the array as the conversion has read
      let last := raw.length - v.rest.length
      let (s, a) := trimAt (store.value p) last
      let store' := store.setValue p a
      ⟨if (store'.value p).getD s 0 ≠ 0 ∨ outside v = true then bad store'
        else .ok (cast v.value), some (p, (trimSpan (store.value p) last).2), store'⟩

/-- `ini_get_str`. -/
def iniGetStrAt (store : IniArrays) (name key dflt : Option Bytes) :
    IniOutcome (Except ConfErr (Option Bytes)) :=
  iniReadAt store name key dflt fun raw ↦
    if raw = [] then .error (ascii "value is empty") else .ok (some raw)

/-- `ini_get_u32`. -/
def iniGetU32At (store : IniArrays) (name key : Option Bytes) (dflt : UInt32) :
    IniOutcome (Except ConfErr UInt32) :=
  iniConvertAt strtoul (fun v ↦ v.erange || 0xffffffff < v.value) UInt64.toUInt32
    (ascii " is not an unsigned 32-bit integer") store name key dflt

/-- `ini_get_f64`. -/
def iniGetF64At (store : IniArrays) (name key : Option Bytes) (dflt : ExtRat) :
    IniOutcome (Except ConfErr ExtRat) :=
  iniConvertAt strtod Converted.erange id (ascii " is not a number") store name key dflt

/-- `ini_get_bool`. -/
def iniGetBoolAt (store : IniArrays) (name key : Option Bytes) (dflt : Bool) :
    IniOutcome (Except ConfErr Bool) :=
  iniReadAt store name key dflt fun raw ↦
    let yes := [ascii "true", ascii "yes", ascii "on", ascii "1"]
    let no := [ascii "false", ascii "no", ascii "off", ascii "0"]
    if yes.any (sameText raw) then .ok true
    else if no.any (sameText raw) then .ok false
    else .error
      (quoted raw ++ ascii " is not a boolean (true/false, yes/no, on/off, 1/0)")

/-- `ini_check_keys`. A null name is printed as `(null)`. -/
def iniCheckKeysAt (store : IniArrays) (name : Option Bytes) (allowed : List Bytes) :
    IniOutcome (Except ConfErr Unit) where
  result :=
    let name' := name.getD (ascii "(null)")
    match findSectionAt store name with
    | none => .error (.inSection name' (ascii "no such section"))
    | some i =>
      match (store.pairs i).find? fun pair ↦ !allowed.any (textAt pair.key 0 == ·) with
      | none => .ok ()
      | some pair =>
        .error (.inSection name' (ascii "unknown key " ++ quoted (textAt pair.key 0)))
  wrote := none
  store := store

/-- A call of the interface; `none` is a null pointer. -/
inductive IniLookup where
  | get (name key : Option Bytes)
  | str (name key dflt : Option Bytes)
  | u32 (name key : Option Bytes) (dflt : UInt32)
  | f64 (name key : Option Bytes) (dflt : ExtRat)
  | bool (name key : Option Bytes) (dflt : Bool)
  | checkKeys (name : Option Bytes) (allowed : List Bytes)

/-- What it returns; a pointer into the store is the text it points at. -/
inductive IniAnswer where
  | get (value : Option Bytes)
  | str (result : Except ConfErr (Option Bytes))
  | u32 (result : Except ConfErr UInt32)
  | f64 (result : Except ConfErr ExtRat)
  | bool (result : Except ConfErr Bool)
  | checkKeys (result : Except ConfErr Unit)

def IniOutcome.map {α β : Type} (f : α → β) (outcome : IniOutcome α) : IniOutcome β where
  result := f outcome.result
  wrote := outcome.wrote
  store := outcome.store

def IniLookup.run (store : IniArrays) : IniLookup → IniOutcome IniAnswer
  | .get name key =>
    ⟨.get ((iniGetAt store name key).map fun p ↦ textAt (store.value p) 0), none, store⟩
  | .str name key dflt => (iniGetStrAt store name key dflt).map .str
  | .u32 name key dflt => (iniGetU32At store name key dflt).map .u32
  | .f64 name key dflt => (iniGetF64At store name key dflt).map .f64
  | .bool name key dflt => (iniGetBoolAt store name key dflt).map .bool
  | .checkKeys name allowed => (iniCheckKeysAt store name allowed).map .checkKeys

def IniArrays.after (store : IniArrays) (calls : List IniLookup) : IniArrays :=
  calls.foldl (fun store call ↦ (call.run store).store) store

/-- The terminator of a value. -/
structure IniArrays.EndsAt (store : IniArrays) (p : ValueRef) (k : ℕ) : Prop where
  lt : k < iniMaxLen
  zero : (store.value p)[k]? = some 0
  first : k = strlen (store.value p) 0

/-- **Lookups are read-only**: each leaves the store as it is and writes a terminator, if at all,
over the terminator of the value, so that none makes a difference to another. -/
structure ReadOnly (store : IniArrays) (calls : List IniLookup) : Prop where
  unchanged : ∀ pre, pre <+: calls → store.after pre = store
  terminator : ∀ pre call post, calls = pre ++ call :: post →
    ∀ p k, (call.run (store.after pre)).wrote = some (p, k) → (store.after pre).EndsAt p k
  independent : ∀ pre call post, calls = pre ++ call :: post →
    (call.run (store.after pre)).result = (call.run store).result

/-! ## Trimming

On a text that ends in front of a terminator the loops find the ends of the trimmed text. If the
text does not end in a blank, the terminator is written where it stands already. -/

section Trim

variable {a t rest : Bytes} {s : ℕ}

private theorem dropBlanks_eq (ha : a.drop s = t ++ rest) :
    dropBlanks a s (s + t.length) = s + (t.rdropWhile isspace).length := by
  induction t using List.reverseRecOn generalizing rest with
  | nil =>
    cases s with
    | zero => rfl
    | succ s => exact if_neg fun h ↦ absurd h.1 (lt_irrefl _)
  | append_singleton t b ih =>
    have hlast : a.getD (s + t.length) 0 = b := by
      rw [List.getD_eq_getElem?_getD, ← List.getElem?_drop, ha, List.append_assoc,
        List.getElem?_append_right (Nat.le_refl _), Nat.sub_self]
      rfl
    rw [List.append_assoc] at ha
    rw [List.length_append, List.length_singleton, ← Nat.add_assoc, dropBlanks, hlast]
    cases hb : isspace b with
    | true =>
      rw [if_pos ⟨Nat.lt_succ_of_le (Nat.le_add_right _ _), rfl⟩, ih ha,
        List.rdropWhile_concat_pos _ _ _ hb]
    | false =>
      rw [if_neg fun h ↦ Bool.false_ne_true h.2,
        List.rdropWhile_concat_neg _ _ _ (by rw [hb]; exact Bool.false_ne_true),
        List.length_append, List.length_singleton, Nat.add_assoc]

private theorem drop_skipBlanks (ha : a.drop s = t ++ 0 :: rest) :
    skipBlanks a s = s + (t.takeWhile isspace).length ∧
      a.drop (skipBlanks a s) = t.dropWhile isspace ++ 0 :: rest := by
  have hskip : (a.drop s).takeWhile isspace = t.takeWhile isspace := by
    rw [ha, List.takeWhile_append]
    split_ifs with hall
    · -- a terminator is not a blank
      rw [(List.takeWhile_prefix _).eq_of_length hall]
      exact List.append_nil t
    · rfl
  refine ⟨by rw [skipBlanks, hskip], ?_⟩
  calc a.drop (skipBlanks a s) = (t ++ 0 :: rest).drop (t.takeWhile isspace).length := by
        rw [skipBlanks, hskip, ← List.drop_drop, ha]
    _ = (t.takeWhile isspace ++ (t.dropWhile isspace ++ 0 :: rest)).drop
          (t.takeWhile isspace).length := by
        rw [← List.append_assoc, List.takeWhile_append_dropWhile]
    _ = t.dropWhile isspace ++ 0 :: rest := List.drop_left

private theorem trimSpan_eq (h : 0 ∉ t) (ha : a.drop s = t ++ 0 :: rest) :
    trimSpan a s = (s + (t.takeWhile isspace).length,
      s + (t.takeWhile isspace).length + (trim t).length) := by
  obtain ⟨hskip, hdrop⟩ := drop_skipBlanks ha
  have htext := textAt_of_drop (fun hmem ↦ h ((List.dropWhile_suffix _).subset hmem)) hdrop
  have hend := dropBlanks_eq hdrop
  simp only [trimSpan, strlen, htext, hend]
  rw [hskip]
  rfl

/-- **Trimming in place is trimming.** -/
theorem textAt_trimAt (h : 0 ∉ t) (ha : a.drop s = t ++ 0 :: rest) :
    textAt (trimAt a s).2 (trimAt a s).1 = trim t := by
  obtain ⟨hskip, hdrop⟩ := drop_skipBlanks ha
  have hkept : t.dropWhile isspace = trim t ++ (t.dropWhile isspace).rtakeWhile isspace :=
    List.rdropWhile_append_rtakeWhile.symm
  obtain ⟨b, tail, htail⟩ : ∃ b tail,
      (t.dropWhile isspace).rtakeWhile isspace ++ 0 :: rest = b :: tail :=
    List.exists_cons_of_ne_nil (by simp)
  have hcut : (trimAt a s).2.drop (trimAt a s).1 = trim t ++ 0 :: tail := by
    rw [trimAt, trimSpan_eq h ha]
    simp only
    rw [← hskip, List.drop_set, if_neg (by omega), hdrop, Nat.add_sub_cancel_left, hkept,
      List.append_assoc, htail, List.set_append_right _ _ (Nat.le_refl _), Nat.sub_self]
    rfl
  exact textAt_of_drop (fun hmem ↦ h (List.mem_of_mem_strip hmem)) hcut

private theorem trimSpan_snd (h : 0 ∉ t) (ha : a.drop s = t ++ 0 :: rest)
    (hlast : ∀ hne : t ≠ [], isspace (t.getLast hne) = false) :
    (trimSpan a s).2 = s + t.length := by
  have hkept : trim t = t.dropWhile isspace := by
    refine (List.rdropWhile_eq_self_iff).mpr fun hne ↦ ?_
    rw [(List.dropWhile_suffix isspace).getLast hne, hlast]
    exact Bool.false_ne_true
  have hlen := congrArg List.length (@List.takeWhile_append_dropWhile _ isspace t)
  rw [List.length_append] at hlen
  rw [trimSpan_eq h ha, hkept]
  simp only
  omega

end Trim

/-! ## Finding a value

A value is found by its position. The position comes from a search among arrays, and the search
compares texts, so it finds what the search in the store of texts finds. -/

section Find

variable {ini : Ini}

private theorem modify_eq_of_fixed {α : Type*} {f : α → α} {l : List α} {i : ℕ}
    (h : ∀ a, l[i]? = some a → f a = a) : l.modify i f = l := by
  refine List.ext_getElem? fun j ↦ ?_
  rw [List.getElem?_modify]
  cases hj : l[j]? with
  | none => rfl
  | some a =>
    by_cases hij : i = j
    · subst hij
      simp [h a hj]
    · simp [hij]

private theorem setValue_value (store : IniArrays) (p : ValueRef) :
    store.setValue p (store.value p) = store := by
  obtain ⟨sections⟩ := store
  refine congrArg IniArrays.mk (modify_eq_of_fixed fun sec hsec ↦ ?_)
  have hpairs : IniArrays.pairs ⟨sections⟩ p.1 = sec.pairs := by
    rw [IniArrays.pairs, hsec]
    rfl
  rw [modify_eq_of_fixed]
  intro pair hpair
  rw [IniArrays.value, hpairs, hpair]
  rfl

private theorem findIdx?_congr {α : Type*} {p q : α → Bool} {l : List α} (h : ∀ a ∈ l, p a = q a) :
    l.findIdx? p = l.findIdx? q := by
  induction l with
  | nil => rfl
  | cons a l ih =>
    rw [List.forall_mem_cons] at h
    rw [List.findIdx?_cons, List.findIdx?_cons, h.1, ih h.2]

theorem Plain.zero_notMem {s : Bytes} (h : Plain s) : 0 ∉ s :=
  fun hmem ↦ absurd (h.of_mem hmem) (by decide)

theorem Plain.textAt {s : Bytes} (h : Plain s) : textAt (charArray iniMaxLen s) 0 = s :=
  textAt_charArray iniMaxLen h.zero_notMem (Nat.zero_le _)

private theorem findSectionAt_arrays (hwell : ini.WellFormed) (name : Bytes) :
    findSectionAt ini.arrays (some name) = ini.sections.findIdx? fun sec ↦ sec.name = name := by
  rw [findSectionAt, Option.bind_some, Ini.arrays, List.findIdx?_map]
  refine findIdx?_congr fun sec hsec ↦ ?_
  rw [Function.comp_apply, IniSection.arrays, (hwell.sections sec hsec).name.textAt]

private theorem pairs_arrays {i : ℕ} {sec : IniSection} (hsec : ini.sections[i]? = some sec) :
    ini.arrays.pairs i = sec.pairs.map IniPair.arrays := by
  rw [IniArrays.pairs, Ini.arrays, List.getElem?_map, hsec]
  rfl

theorem iniGetAt_arrays (hwell : ini.WellFormed) (name key : Bytes) :
    (iniGetAt ini.arrays (some name) (some key)).map ini.arrays.value
      = (iniGet ini name key).map (charArray iniMaxLen) := by
  rw [iniGetAt, findSectionAt_arrays hwell, iniGet, findSection,
    List.find?_eq_bind_findIdx?_getElem?]
  cases hsec : ini.sections.findIdx? fun sec ↦ sec.name = name with
  | none => rfl
  | some i =>
    obtain ⟨hi, -, -⟩ := List.findIdx?_eq_some_iff_getElem.mp hsec
    have hget : ini.sections[i]? = some ini.sections[i] := List.getElem?_eq_getElem hi
    have hpairs := (hwell.sections _ (List.getElem_mem hi)).pairs
    have hkeys : (ini.arrays.pairs i).findIdx? (fun pair ↦ textAt pair.key 0 = key)
        = ini.sections[i].pairs.findIdx? fun pair ↦ pair.key = key := by
      rw [pairs_arrays hget, List.findIdx?_map]
      refine findIdx?_congr fun pair hpair ↦ ?_
      rw [Function.comp_apply, IniPair.arrays, (hpairs pair hpair).key.textAt]
    simp only [Option.bind_some, hget, hkeys]
    rw [List.find?_eq_bind_findIdx?_getElem?]
    cases hpair : ini.sections[i].pairs.findIdx? fun pair ↦ pair.key = key with
    | none => rfl
    | some j =>
      obtain ⟨hj, -, -⟩ := List.findIdx?_eq_some_iff_getElem.mp hpair
      have hvalue : ini.arrays.value (i, j)
          = charArray iniMaxLen ini.sections[i].pairs[j].value := by
        rw [IniArrays.value, pairs_arrays hget, List.getElem?_map, List.getElem?_eq_getElem hj]
        rfl
      simp only [Option.bind_some, Option.map_some, hvalue, List.getElem?_eq_getElem hj]

end Find

/-! ## One lookup

Most lookups only read. Two convert a number and trim what the conversion left; they are one
definition, and one lemma about it settles both. -/

/-- A lookup with a null name or a null key finds nothing. -/
def withNames {α : Type} (name key : Option Bytes) (dflt : α) (look : Bytes → Bytes → α) : α :=
  match name, key with
  | some name, some key => look name key
  | _, _ => dflt

/-- What a lookup yields on a store of texts. -/
def IniLookup.answer (ini : Ini) : IniLookup → IniAnswer
  | .get name key => .get (withNames name key none (iniGet ini))
  | .str name key dflt =>
    .str (withNames name key (.ok dflt) fun name key ↦ iniGetStr ini name key dflt)
  | .u32 name key dflt =>
    .u32 (withNames name key (.ok dflt) fun name key ↦ iniGetU32 ini name key dflt)
  | .f64 name key dflt =>
    .f64 (withNames name key (.ok dflt) fun name key ↦ iniGetF64 ini name key dflt)
  | .bool name key dflt =>
    .bool (withNames name key (.ok dflt) fun name key ↦ iniGetBool ini name key dflt)
  | .checkKeys (some name) allowed => .checkKeys (iniCheckKeys ini name allowed)
  | .checkKeys none _ =>
    .checkKeys (.error (.inSection (ascii "(null)") (ascii "no such section")))

/-- A lookup that only reads, or writes over a terminator, and yields what is expected. -/
structure IniOutcome.Harmless {α : Type} (outcome : IniOutcome α) (store : IniArrays)
    (expected : α) : Prop where
  kept : outcome.store = store
  wrote : ∀ p k, outcome.wrote = some (p, k) → store.EndsAt p k
  result : outcome.result = expected

section Lookup

variable {ini : Ini}

theorem IniOutcome.Harmless.map {α β : Type} {outcome : IniOutcome α} {store : IniArrays} {a : α}
    (h : outcome.Harmless store a) (f : α → β) : (outcome.map f).Harmless store (f a) :=
  ⟨h.kept, h.wrote, congrArg f h.result⟩

private theorem harmless_of_read {α : Type} {store : IniArrays} {result expected : α}
    (h : result = expected) : IniOutcome.Harmless ⟨result, none, store⟩ store expected :=
  ⟨rfl, fun _ _ hwrote ↦ (Option.some_ne_none _ hwrote.symm).elim, h⟩

private theorem iniGetAt_null_key (store : IniArrays) (name : Option Bytes) :
    iniGetAt store name none = none := by
  rw [iniGetAt]
  cases findSectionAt store name <;> rfl

private theorem iniGetAt_cases (hwell : ini.WellFormed) (name key : Bytes) :
    (iniGetAt ini.arrays (some name) (some key) = none ∧ iniGet ini name key = none) ∨
      ∃ p raw, iniGetAt ini.arrays (some name) (some key) = some p ∧
        iniGet ini name key = some raw ∧ ini.arrays.value p = charArray iniMaxLen raw ∧
        Plain raw ∧ raw.length < iniMaxLen := by
  have hget := iniGetAt_arrays hwell name key
  cases hat : iniGetAt ini.arrays (some name) (some key) with
  | none =>
    rw [hat, Option.map_none, eq_comm, Option.map_eq_none_iff] at hget
    exact Or.inl ⟨rfl, hget⟩
  | some p =>
    rw [hat, Option.map_some, eq_comm, Option.map_eq_some_iff] at hget
    obtain ⟨raw, hraw, hvalue⟩ := hget
    obtain ⟨sec, hsec, -, hpair⟩ := (iniGet_eq_some_iff hwell).mp hraw
    have hpair' := (hwell.sections sec hsec).pairs _ hpair
    exact Or.inr ⟨p, raw, rfl, hraw, hvalue.symm, hpair'.value, hpair'.value_short⟩

private theorem iniReadAt_harmless {α : Type} (hwell : ini.WellFormed) (name key : Option Bytes)
    (dflt : α)
    (read : Bytes → Except Bytes α) : (iniReadAt ini.arrays name key dflt read).Harmless ini.arrays
      (withNames name key (.ok dflt) fun name key ↦ iniGetWith ini name key dflt read) := by
  refine harmless_of_read ?_
  cases name with
  | none => rfl
  | some name =>
    cases key with
    | none => rw [iniGetAt_null_key]; rfl
    | some key =>
      simp only [withNames, iniGetWith]
      rcases iniGetAt_cases hwell name key with
        ⟨hat, hget⟩ | ⟨p, raw, hat, hget, hvalue, hplain, -⟩
      · rw [hat, hget]
      · rw [hat, hget]
        simp only [hvalue, hplain.textAt, Option.getD_some]

/-- **Trimming an end of a value** puts the terminator where it is: the value does not end in
a blank. Whether anything is left is seen in the array as in the text. -/
theorem trimAt_charArray {raw rest : Bytes} (hplain : Plain raw) (hrest : rest <:+ raw) :
    (trimSpan (charArray iniMaxLen raw) (raw.length - rest.length)).2 = raw.length ∧
      (trimAt (charArray iniMaxLen raw) (raw.length - rest.length)).2 = charArray iniMaxLen raw ∧
      ((charArray iniMaxLen raw).getD
          (trimAt (charArray iniMaxLen raw) (raw.length - rest.length)).1 0 ≠ 0 ↔
        trim rest ≠ []) := by
  have hle := hrest.length_le
  have hzero : 0 ∉ rest := fun hmem ↦ hplain.zero_notMem (hrest.subset hmem)
  have hdrop := @drop_charArray raw (raw.length - rest.length) iniMaxLen (Nat.sub_le _ _)
  rw [← List.suffix_iff_eq_drop.mp hrest] at hdrop
  have hlast (hne : rest ≠ []) : isspace (rest.getLast hne) = false := by
    rw [hrest.getLast hne]
    exact hplain.stripped.last _
  have hend : (trimSpan (charArray iniMaxLen raw) (raw.length - rest.length)).2 = raw.length := by
    rw [trimSpan_snd hzero hdrop hlast, Nat.sub_add_cancel hle]
  have hsame : (trimAt (charArray iniMaxLen raw) (raw.length - rest.length)).2
      = charArray iniMaxLen raw := by
    rw [trimAt, hend]
    exact set_charArray _ _
  have htext := textAt_trimAt hzero hdrop
  rw [hsame] at htext
  refine ⟨hend, hsame, ?_⟩
  rw [← htext, Ne, Ne, textAt_eq_nil_iff]

/-- What `ini_get_u32` and `ini_get_f64` make of a value. -/
def readNumber {α β : Type} (convert : Bytes → Option (Converted α))
    (outside : Converted α → Bool) (cast : α → β) (complaint raw : Bytes) : Except Bytes β :=
  match convert raw with
  | none => .error (quoted raw ++ complaint)
  | some v =>
    if trim v.rest ≠ [] ∨ outside v = true then .error (quoted raw ++ complaint)
    else .ok (cast v.value)

/-- **A lookup that trims** writes the terminator over the terminator: what the conversion left is
an end of the value. -/
theorem iniConvertAt_harmless {α β : Type} {convert : Bytes → Option (Converted α)}
    (hsuffix : ∀ raw v, convert raw = some v → v.rest <:+ raw) (outside : Converted α → Bool)
    (cast : α → β) (complaint : Bytes) (hwell : ini.WellFormed) (name key : Option Bytes)
    (dflt : β) :
    (iniConvertAt convert outside cast complaint ini.arrays name key dflt).Harmless ini.arrays
      (withNames name key (.ok dflt) fun name key ↦
        iniGetWith ini name key dflt (readNumber convert outside cast complaint)) := by
  have hnone (h : iniGetAt ini.arrays name key = none) :
      (iniConvertAt convert outside cast complaint ini.arrays name key dflt).Harmless ini.arrays
        (.ok dflt) := by
    rw [iniConvertAt, h]
    exact harmless_of_read rfl
  cases name with
  | none => exact hnone rfl
  | some name =>
    cases key with
    | none => exact hnone (iniGetAt_null_key _ _)
    | some key =>
      simp only [withNames, iniGetWith]
      rcases iniGetAt_cases hwell name key with
        ⟨hat, hget⟩ | ⟨p, raw, hat, hget, hvalue, hplain, hshort⟩
      · rw [hget]
        exact hnone hat
      rw [iniConvertAt, hat, hget]
      simp only [hvalue, hplain.textAt, readNumber]
      cases hconvert : convert raw with
      | none => exact harmless_of_read rfl
      | some v =>
        obtain ⟨hend, hsame, hleft⟩ := trimAt_charArray hplain (hsuffix raw v hconvert)
        have hstore : ini.arrays.setValue p (charArray iniMaxLen raw) = ini.arrays := by
          rw [← hvalue, setValue_value]
        simp only [hsame, hstore, hvalue, hend, hplain.textAt, hleft]
        refine ⟨rfl, ?_, ?_⟩
        · rintro p' k hwrote
          obtain ⟨rfl, rfl⟩ := Prod.mk.inj (Option.some.inj hwrote)
          refine ⟨hshort, ?_, ?_⟩
          · rw [hvalue]
            exact getElem?_charArray _ _
          · rw [hvalue, strlen, hplain.textAt]
        · split_ifs <;> rfl

theorem iniGetU32_eq (ini : Ini) (name key : Bytes) (dflt : UInt32) :
    iniGetU32 ini name key dflt = iniGetWith ini name key dflt (readNumber strtoul
      (fun v ↦ v.erange || 0xffffffff < v.value) UInt64.toUInt32
      (ascii " is not an unsigned 32-bit integer")) := by
  refine congrArg _ (funext fun raw ↦ ?_)
  rw [readNumber]
  cases strtoul raw with
  | none => rfl
  | some v => simp only [Bool.or_eq_true, decide_eq_true_eq]

theorem iniGetF64_eq (ini : Ini) (name key : Bytes) (dflt : ExtRat) :
    iniGetF64 ini name key dflt = iniGetWith ini name key dflt
      (readNumber strtod Converted.erange id (ascii " is not a number")) := by
  refine congrArg _ (funext fun raw ↦ ?_)
  rw [readNumber]
  cases strtod raw with
  | none => rfl
  | some v => rfl

private theorem iniCheckKeysAt_harmless (hwell : ini.WellFormed) (name : Bytes)
    (allowed : List Bytes) :
    (iniCheckKeysAt ini.arrays (some name) allowed).Harmless ini.arrays
      (iniCheckKeys ini name allowed) := by
  refine harmless_of_read ?_
  rw [iniCheckKeys, findSection, List.find?_eq_bind_findIdx?_getElem?,
    ← findSectionAt_arrays hwell]
  cases hsec : findSectionAt ini.arrays (some name) with
  | none => rfl
  | some i =>
    rw [findSectionAt_arrays hwell] at hsec
    obtain ⟨hi, -, -⟩ := List.findIdx?_eq_some_iff_getElem.mp hsec
    have hget : ini.sections[i]? = some ini.sections[i] := List.getElem?_eq_getElem hi
    have hpairs := (hwell.sections _ (List.getElem_mem hi)).pairs
    have hfind : ini.sections[i].pairs.find?
          ((fun pair ↦ !allowed.any (textAt pair.key 0 == ·)) ∘ IniPair.arrays)
        = ini.sections[i].pairs.find? fun pair ↦ !allowed.any (pair.key == ·) := by
      rw [List.find?_eq_bind_findIdx?_getElem?, List.find?_eq_bind_findIdx?_getElem?]
      refine congrArg (Option.bind · _) (findIdx?_congr fun pair hpair ↦ ?_)
      rw [Function.comp_apply, IniPair.arrays, (hpairs pair hpair).key.textAt]
    simp only [Option.bind_some, hget, pairs_arrays hget, List.find?_map, hfind]
    cases hbad : ini.sections[i].pairs.find? fun pair ↦ !allowed.any (pair.key == ·) with
    | none => rfl
    | some pair =>
      have hkey := (hpairs pair (List.mem_of_find?_eq_some hbad)).key.textAt
      simp only [Option.map_some, IniPair.arrays, hkey, Option.getD_some]

/-- **No lookup does harm.** -/
theorem run_harmless (hwell : ini.WellFormed) (call : IniLookup) :
    (call.run ini.arrays).Harmless ini.arrays (call.answer ini) := by
  cases call with
  | get name key =>
    refine harmless_of_read (congrArg _ ?_)
    cases name with
    | none => rfl
    | some name =>
      cases key with
      | none => rw [iniGetAt_null_key]; rfl
      | some key =>
        rcases iniGetAt_cases hwell name key with
          ⟨hat, hget⟩ | ⟨p, raw, hat, hget, hvalue, hplain, -⟩
        · rw [hat, withNames, hget, Option.map_none]
        · rw [hat, withNames, hget, Option.map_some, hvalue, hplain.textAt]
  | str name key dflt => exact (iniReadAt_harmless hwell name key dflt _).map IniAnswer.str
  | u32 name key dflt =>
    simp only [IniLookup.answer, iniGetU32_eq]
    exact (iniConvertAt_harmless (fun _ _ ↦ strtoul_suffix) _ _ _ hwell name key dflt).map
      IniAnswer.u32
  | f64 name key dflt =>
    simp only [IniLookup.answer, iniGetF64_eq]
    exact (iniConvertAt_harmless (fun _ _ ↦ strtod_suffix) _ _ _ hwell name key dflt).map
      IniAnswer.f64
  | bool name key dflt => exact (iniReadAt_harmless hwell name key dflt _).map IniAnswer.bool
  | checkKeys name allowed =>
    cases name with
    | none => exact harmless_of_read rfl
    | some name => exact (iniCheckKeysAt_harmless hwell name allowed).map IniAnswer.checkKeys

end Lookup

/-! ## Runs -/

theorem after_arrays {ini : Ini} (hwell : ini.WellFormed) (calls : List IniLookup) :
    ini.arrays.after calls = ini.arrays := by
  induction calls with
  | nil => rfl
  | cons call calls ih =>
    calc ini.arrays.after (call :: calls) = (call.run ini.arrays).store.after calls := rfl
      _ = ini.arrays.after calls := by rw [(run_harmless hwell call).kept]
      _ = ini.arrays := ih

/-- **The lookups on a loaded store are read-only**, in any number and in any order. -/
theorem iniLookups_readOnly {fopen : Bytes → Except Bytes Bytes} {granted : Bool}
    {path : Option Bytes} {store : IniArrays} (hload : iniLoadArrays fopen granted path = .ok store)
    (calls : List IniLookup) : ReadOnly store calls := by
  obtain ⟨ini, hini, rfl⟩ : ∃ ini, iniLoad fopen granted path = .ok ini ∧ ini.arrays = store := by
    rw [iniLoadArrays] at hload
    cases hini : iniLoad fopen granted path with
    | error err =>
      rw [hini] at hload
      cases hload
    | ok ini =>
      rw [hini] at hload
      exact ⟨ini, rfl, Except.ok.inj hload⟩
  obtain ⟨-, _, _, -, -, hwell, -⟩ := iniLoad_ok_iff.mp hini
  refine ⟨fun pre _ ↦ after_arrays hwell pre, fun pre call post _ p k hwrote ↦ ?_,
    fun pre call post _ ↦ ?_⟩
  · rw [after_arrays hwell] at hwrote ⊢
    exact (run_harmless hwell call).wrote p k hwrote
  · rw [after_arrays hwell]

/-- A value with more than a number in it: the lookup fails after it has written. -/
theorem iniLookups_readOnly_seven :
    iniLoadArrays (fun _ ↦ .ok (ascii "[sink]\nframes=7 x")) true (some [])
        = .ok (oneValue (ascii "7 x")).arrays ∧
      (IniLookup.run (oneValue (ascii "7 x")).arrays
        (.u32 (some (ascii "sink")) (some (ascii "frames")) 0)).wrote = some ((0, 0), 3) ∧
      ReadOnly (oneValue (ascii "7 x")).arrays
        [.u32 (some (ascii "sink")) (some (ascii "frames")) 0,
          .f64 (some (ascii "sink")) (some (ascii "frames")) (.fin 0),
          .str (some (ascii "sink")) (some (ascii "frames")) none] := by
  have hload : iniLoadArrays (fun _ ↦ .ok (ascii "[sink]\nframes=7 x")) true (some [])
      = .ok (oneValue (ascii "7 x")).arrays := by decide +kernel
  exact ⟨hload, by decide +kernel, iniLookups_readOnly hload _⟩

end SparseCamera
