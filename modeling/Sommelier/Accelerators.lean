import Mathlib.Data.List.DropRight
import Mathlib.Data.List.Forall2
import Sommelier.Handler.Keyboard

/-!
# The configuration of the accelerators

The keys that the host keeps are a text of the environment: entries between commas, each the name
of a symbol behind the tags of its modifiers. The text is rejected as a whole at its first entry
that is none.

## Main definitions

* `parseAccelerator`, `parseAccelerators`: the parser.
* `Spells`, `Faulty`: the entries that are accelerators, and the others with their errors.

## Main results

* `accelerators_parsed`: what is accepted and as what, and which error the rest gets.
-/
namespace Sommelier

/-! ## The parser -/

inductive ParseError
  | invalidModifier (token : List Char)
  | invalidKeysym (sym : List Char)
  deriving DecidableEq, Repr

/-- White space by its property in Unicode. -/
def isWhitespace (c : Char) : Bool :=
  (9 ≤ c.toNat && c.toNat ≤ 13) || (0x2000 ≤ c.toNat && c.toNat ≤ 0x200a) ||
    [0x20, 0x85, 0xa0, 0x1680, 0x2028, 0x2029, 0x202f, 0x205f, 0x3000].contains c.toNat

def trim (token : List Char) : List Char :=
  (token.dropWhile isWhitespace).rdropWhile isWhitespace

/-- The modifier of a tag in lower case, with its brackets. -/
def tagModifier (tag : String) : Option Modifier :=
  match tag with
  | "<control>" | "<ctrl>" => some .control
  | "<alt>" | "<meta>" => some .alt
  | "<shift>" => some .shift
  | "<super>" | "<win>" | "<search>" => some .logo
  | _ => none

/-- The text up to the first closing bracket, and the text behind it. -/
def splitTag (token : List Char) : Option (List Char × List Char) :=
  match token.dropWhile (· != '>') with
  | [] => none
  | close :: rest => some (token.takeWhile (· != '>') ++ [close], rest)

theorem splitTag_eq_none {token : List Char} : splitTag token = none ↔ '>' ∉ token := by
  have hnil := List.dropWhile_eq_nil_iff (p := (· != '>')) (l := token)
  unfold splitTag
  cases hdrop : token.dropWhile (· != '>') with
  | nil =>
    rw [hdrop] at hnil
    refine iff_of_true rfl fun hmem => ?_
    simpa using hnil.mp rfl _ hmem
  | cons close rest =>
    rw [hdrop] at hnil
    refine iff_of_false (by simp) fun hmem => ?_
    have hall : ∀ c ∈ token, (c != '>') = true := by
      intro c hc
      simp only [bne_iff_ne]
      rintro rfl
      exact hmem hc
    simpa using hnil.mpr hall

theorem splitTag_eq_some {token tag rest : List Char} :
    splitTag token = some (tag, rest) ↔
      ∃ name, '>' ∉ name ∧ tag = name ++ ['>'] ∧ token = name ++ '>' :: rest := by
  constructor
  · intro h
    unfold splitTag at h
    cases hdrop : token.dropWhile (· != '>') with
    | nil => simp [hdrop] at h
    | cons close rest' =>
      simp only [hdrop, Option.some.injEq, Prod.mk.injEq] at h
      obtain ⟨rfl, rfl⟩ := h
      have hclose : close = '>' := by
        have hhead := List.head?_dropWhile_not (· != '>') token
        simpa [hdrop] using hhead
      subst hclose
      refine ⟨token.takeWhile (· != '>'), fun hmem => ?_, rfl, ?_⟩
      · simpa using List.mem_takeWhile_imp hmem
      · rw [← hdrop, List.takeWhile_append_dropWhile]
  · rintro ⟨name, hname, rfl, rfl⟩
    have hall : ∀ c ∈ name, (c != '>') = true := by
      intro c hc
      simp only [bne_iff_ne]
      rintro rfl
      exact hname hc
    simp [splitTag, List.dropWhile_append_of_pos hall, List.takeWhile_append_of_pos hall]

/-- The tags in front of a token, one after the other. -/
def parseModifiers (token : List Char) (modifiers : ℕ) : Except ParseError (ℕ × List Char) :=
  if token.head? = some '<' then
    match _h : splitTag token with
    | none => .error (.invalidModifier token)
    | some (tag, rest) =>
      match tagModifier (String.ofList (tag.map Char.toLower)) with
      | none => .error (.invalidModifier token)
      | some modifier => parseModifiers rest (modifiers ||| modifier.mask)
  else .ok (modifiers, token)
termination_by token.length
decreasing_by
  obtain ⟨name, -, -, rfl⟩ := splitTag_eq_some.mp _h
  simp only [List.length_append, List.length_cons]
  omega

section
variable (keysymFromName : List Char → ℕ) (keysymToLower : ℕ → ℕ)

/-- A token of the configuration, by the two calls of the keyboard library. -/
def parseAccelerator (token : List Char) : Except ParseError Accelerator :=
  match parseModifiers (trim token) 0 with
  | .error e => .error e
  | .ok (modifiers, token) =>
    if token = [] then .error (.invalidKeysym "Empty keysym".toList)
    else if keysymFromName token = 0 then .error (.invalidKeysym token)
    else .ok { modifiers, symbol := keysymToLower (keysymFromName token) }

/-- The tokens that are left; the empty ones are skipped. -/
def parseTokens : List (List Char) → List Accelerator → Except ParseError (List Accelerator)
  | [], result => .ok result
  | token :: tokens, result =>
    if trim token = [] then parseTokens tokens result
    else
      match parseAccelerator keysymFromName keysymToLower (trim token) with
      | .error e => .error e
      | .ok accelerator => parseTokens tokens (result ++ [accelerator])

def parseAccelerators (text : List Char) : Except ParseError (List Accelerator) :=
  parseTokens keysymFromName keysymToLower (text.splitOn ',') []

/-- The accelerators of a session: a text that is rejected stands for none. -/
def configuredAccelerators (text : List Char) : List Accelerator :=
  match parseAccelerators keysymFromName keysymToLower text with
  | .ok accelerators => accelerators
  | .error _ => []

end

/-! ## What is written -/

/-- The text is `core` with white space around it, which neither starts nor ends with any. -/
structure Padded (text core : List Char) : Prop where
  around : ∃ before after, text = before ++ core ++ after ∧
    (∀ c ∈ before, isWhitespace c = true) ∧ ∀ c ∈ after, isWhitespace c = true
  first : ∀ c, core.head? = some c → isWhitespace c = false
  last : ∀ c, core.getLast? = some c → isWhitespace c = false

/-- The tag of this name in angle brackets, in any case. -/
def tagOf (name : List Char) : Option Modifier :=
  tagModifier (String.ofList (('<' :: name ++ ['>']).map Char.toLower))

/-- The text is made of the tags of these modifiers and what is left. -/
inductive Tagged : List Char → List Modifier → List Char → Prop
  | done (rest : List Char) : Tagged rest [] rest
  | tag {name text rest : List Char} {modifier : Modifier} {modifiers : List Modifier}
      (hname : '>' ∉ name) (htag : tagOf name = some modifier)
      (htext : Tagged text modifiers rest) :
      Tagged ('<' :: name ++ '>' :: text) (modifier :: modifiers) rest

/-- All modifiers of a list as a mask. -/
def maskOf (modifiers : List Modifier) : ℕ :=
  modifiers.foldl (fun mask modifier => mask ||| modifier.mask) 0

section
variable (keysymFromName : List Char → ℕ) (keysymToLower : ℕ → ℕ)

/-- The entry is a name of a symbol behind the tags of its modifiers. -/
def Names (entry : List Char) (modifiers : List Modifier) (name : List Char) : Prop :=
  ∃ core, Padded entry core ∧ Tagged core modifiers name ∧ name ≠ [] ∧ name.head? ≠ some '<' ∧
    keysymFromName name ≠ 0

def Spells (entry : List Char) (accelerator : Accelerator) : Prop :=
  ∃ modifiers name, Names keysymFromName entry modifiers name ∧
    accelerator = ⟨maskOf modifiers, keysymToLower (keysymFromName name)⟩

/-- What is wrong with an entry, at its first tag that is none or else in its name. -/
inductive Faulty (entry : List Char) : ParseError → Prop
  | unclosed {core rest : List Char} {modifiers : List Modifier} (hcore : Padded entry core)
      (htags : Tagged core modifiers rest) (hopen : rest.head? = some '<') (hclose : '>' ∉ rest) :
      Faulty entry (.invalidModifier rest)
  | unknownTag {core name rest : List Char} {modifiers : List Modifier} (hcore : Padded entry core)
      (htags : Tagged core modifiers ('<' :: name ++ '>' :: rest)) (hname : '>' ∉ name)
      (htag : tagOf name = none) :
      Faulty entry (.invalidModifier ('<' :: name ++ '>' :: rest))
  | noName {core : List Char} {modifiers : List Modifier} (hcore : Padded entry core)
      (htags : Tagged core modifiers []) : Faulty entry (.invalidKeysym "Empty keysym".toList)
  | unknownName {core name : List Char} {modifiers : List Modifier} (hcore : Padded entry core)
      (htags : Tagged core modifiers name) (hname : name ≠ []) (hopen : name.head? ≠ some '<')
      (hsym : keysymFromName name = 0) : Faulty entry (.invalidKeysym name)

end

/-- The token is more than white space. -/
def notBlank (token : List Char) : Bool :=
  !token.all isWhitespace

/-- The entries between the commas. -/
def entries (text : List Char) : List (List Char) :=
  (text.splitOn ',').filter notBlank

/-! ## White space -/

/-- A prefix starts like the text. -/
theorem head?_of_start {text front : List Char} (h : front <+: text) {c : Char}
    (hc : front.head? = some c) : text.head? = some c := by
  obtain ⟨rest, rfl⟩ := h
  cases front with
  | nil => simp at hc
  | cons a front => simpa using hc

theorem trim_padded (text : List Char) : Padded text (trim text) := by
  refine ⟨⟨text.takeWhile isWhitespace, (text.dropWhile isWhitespace).rtakeWhile isWhitespace,
    ?_, fun c hc => List.mem_takeWhile_imp hc, fun c hc => List.mem_rtakeWhile_imp hc⟩, ?_, ?_⟩
  · rw [trim, List.append_assoc, List.rdropWhile_append_rtakeWhile,
      List.takeWhile_append_dropWhile]
  · intro c hc
    have hhead := List.head?_dropWhile_not isWhitespace text
    have hstart := List.rdropWhile_prefix isWhitespace (text.dropWhile isWhitespace)
    rw [head?_of_start hstart hc] at hhead
    simpa using hhead
  · intro c hc
    have hne : trim text ≠ [] := by
      intro hnil
      simp [hnil] at hc
    have hlast := List.rdropWhile_last_not isWhitespace _ hne
    rw [List.getLast?_eq_some_getLast hne, Option.some.injEq] at hc
    rw [← hc]
    simpa only [trim, Bool.not_eq_true] using hlast

theorem rdropWhile_append_of_all {p : Char → Bool} {front after : List Char}
    (h : ∀ c ∈ after, p c = true) : (front ++ after).rdropWhile p = front.rdropWhile p := by
  rw [List.rdropWhile, List.reverse_append, List.dropWhile_append_of_pos (by simpa using h),
    List.rdropWhile]

theorem Padded.trim_eq {text core : List Char} (h : Padded text core) : trim text = core := by
  obtain ⟨⟨before, after, rfl, hbefore, hafter⟩, hfirst, hlast⟩ := h
  rw [trim, List.append_assoc, List.dropWhile_append_of_pos hbefore]
  cases core with
  | nil =>
    rw [List.nil_append, List.dropWhile_eq_nil_iff.mpr hafter]
    rfl
  | cons c core =>
    have hc := hfirst c rfl
    rw [List.cons_append, List.dropWhile_cons_of_neg (by simp [hc]), ← List.cons_append,
      rdropWhile_append_of_all hafter, List.rdropWhile_eq_self_iff]
    intro hne
    rw [hlast _ (List.getLast?_eq_some_getLast hne)]
    simp

theorem trim_eq_nil {text : List Char} : trim text = [] ↔ text.all isWhitespace = true := by
  rw [trim, List.rdropWhile_eq_nil_iff, List.all_eq_true]
  refine ⟨fun h c hc => ?_, fun h c hc => h c (List.dropWhile_sublist _ |>.mem hc)⟩
  rw [← List.takeWhile_append_dropWhile (p := isWhitespace) (l := text), List.mem_append] at hc
  exact hc.elim List.mem_takeWhile_imp (h c)

theorem trim_trim (text : List Char) : trim (trim text) = trim text :=
  Padded.trim_eq
    ⟨⟨[], [], by simp, nofun, nofun⟩, (trim_padded text).first, (trim_padded text).last⟩

/-! ## Tags -/

theorem splitTag_tag {name : List Char} (hname : '>' ∉ name) (text : List Char) :
    splitTag ('<' :: name ++ '>' :: text) = some ('<' :: name ++ ['>'], text) :=
  splitTag_eq_some.mpr ⟨'<' :: name, by simpa using hname, rfl, rfl⟩

theorem parseModifiers_tag {name text : List Char} {modifier : Modifier} (hname : '>' ∉ name)
    (htag : tagOf name = some modifier) (modifiers : ℕ) :
    parseModifiers ('<' :: name ++ '>' :: text) modifiers =
      parseModifiers text (modifiers ||| modifier.mask) := by
  rw [tagOf] at htag
  rw [parseModifiers, if_pos (by simp), splitTag_tag hname]
  simp only [htag]

theorem parseModifiers_tagged {token rest : List Char} {modifiers : List Modifier}
    (h : Tagged token modifiers rest) (mask : ℕ) :
    parseModifiers token mask = parseModifiers rest
      (modifiers.foldl (fun mask modifier => mask ||| modifier.mask) mask) := by
  induction h generalizing mask with
  | done rest => rfl
  | tag hname htag _ ih => rw [parseModifiers_tag hname htag, ih, List.foldl_cons]

theorem parseModifiers_name {token : List Char} (h : token.head? ≠ some '<') (mask : ℕ) :
    parseModifiers token mask = .ok (mask, token) := by
  rw [parseModifiers, if_neg h]

theorem parseModifiers_unclosed {token : List Char} (h : token.head? = some '<')
    (hclose : '>' ∉ token) (mask : ℕ) :
    parseModifiers token mask = .error (.invalidModifier token) := by
  rw [parseModifiers, if_pos h, splitTag_eq_none.mpr hclose]

theorem parseModifiers_unknownTag {name rest : List Char} (hname : '>' ∉ name)
    (htag : tagOf name = none) (mask : ℕ) :
    parseModifiers ('<' :: name ++ '>' :: rest) mask =
      .error (.invalidModifier ('<' :: name ++ '>' :: rest)) := by
  rw [tagOf] at htag
  rw [parseModifiers, if_pos (by simp), splitTag_tag hname]
  simp only [htag]

/-- Behind its tags a token goes on without a bracket, or with one that starts no tag. -/
theorem exists_tagged (token : List Char) : ∃ modifiers rest, Tagged token modifiers rest ∧
    (rest.head? ≠ some '<' ∨ rest.head? = some '<' ∧ '>' ∉ rest ∨
      ∃ name tail, rest = '<' :: name ++ '>' :: tail ∧ '>' ∉ name ∧ tagOf name = none) := by
  induction hn : token.length using Nat.strong_induction_on generalizing token with
  | _ n ih =>
    subst hn
    by_cases hopen : token.head? = some '<'
    · cases hsplit : splitTag token with
      | none => exact ⟨[], token, .done _, .inr (.inl ⟨hopen, splitTag_eq_none.mp hsplit⟩)⟩
      | some split =>
        obtain ⟨_, text⟩ := split
        obtain ⟨front, hfront, -, rfl⟩ := splitTag_eq_some.mp hsplit
        cases front with
        | nil => simp at hopen
        | cons c name =>
          obtain rfl : c = '<' := by simpa using hopen
          have hname : '>' ∉ name := by
            simp only [List.mem_cons, not_or] at hfront
            exact hfront.2
          cases htag : tagOf name with
          | none => exact ⟨[], _, .done _, .inr (.inr ⟨name, text, rfl, hname, htag⟩)⟩
          | some modifier =>
            have hlt : text.length < ('<' :: name ++ '>' :: text).length := by
              simp only [List.length_append, List.length_cons]
              omega
            obtain ⟨modifiers, rest, htagged, hrest⟩ := ih _ hlt text rfl
            exact ⟨modifier :: modifiers, rest, .tag hname htag htagged, hrest⟩
    · exact ⟨[], token, .done _, .inl hopen⟩

/-! ## Entries -/

section
variable {keysymFromName : List Char → ℕ} {keysymToLower : ℕ → ℕ}

theorem parseAccelerator_spells {token : List Char} {accelerator : Accelerator}
    (h : Spells keysymFromName keysymToLower token accelerator) :
    parseAccelerator keysymFromName keysymToLower token = .ok accelerator := by
  obtain ⟨modifiers, name, ⟨core, hcore, htags, hname, hopen, hsym⟩, rfl⟩ := h
  rw [parseAccelerator, hcore.trim_eq, parseModifiers_tagged htags, parseModifiers_name hopen]
  simp [hname, hsym, maskOf]

theorem parseAccelerator_faulty {token : List Char} {e : ParseError}
    (h : Faulty keysymFromName token e) :
    parseAccelerator keysymFromName keysymToLower token = .error e := by
  cases h with
  | unclosed hcore htags hopen hclose =>
    rw [parseAccelerator, hcore.trim_eq, parseModifiers_tagged htags,
      parseModifiers_unclosed hopen hclose]
  | unknownTag hcore htags hname htag =>
    rw [parseAccelerator, hcore.trim_eq, parseModifiers_tagged htags,
      parseModifiers_unknownTag hname htag]
  | noName hcore htags =>
    rw [parseAccelerator, hcore.trim_eq, parseModifiers_tagged htags,
      parseModifiers_name (by simp)]
    simp
  | unknownName hcore htags hname hopen hsym =>
    rw [parseAccelerator, hcore.trim_eq, parseModifiers_tagged htags, parseModifiers_name hopen]
    simp [hname, hsym]

variable (keysymFromName keysymToLower) in
theorem spells_or_faulty (token : List Char) :
    (∃ accelerator, Spells keysymFromName keysymToLower token accelerator) ∨
      ∃ e, Faulty keysymFromName token e := by
  have hcore := trim_padded token
  obtain ⟨modifiers, rest, htags, hopen | ⟨hopen, hclose⟩ | ⟨name, tail, rfl, hname, htag⟩⟩ :=
    exists_tagged (trim token)
  · by_cases hname : rest = []
    · subst hname
      exact .inr ⟨_, .noName hcore htags⟩
    · by_cases hsym : keysymFromName rest = 0
      · exact .inr ⟨_, .unknownName hcore htags hname hopen hsym⟩
      · exact .inl ⟨_, modifiers, rest, ⟨_, hcore, htags, hname, hopen, hsym⟩, rfl⟩
  · exact .inr ⟨_, .unclosed hcore htags hopen hclose⟩
  · exact .inr ⟨_, .unknownTag hcore htags hname htag⟩

theorem parseAccelerator_ok {token : List Char} {accelerator : Accelerator} :
    parseAccelerator keysymFromName keysymToLower token = .ok accelerator ↔
      Spells keysymFromName keysymToLower token accelerator := by
  refine ⟨fun h => ?_, parseAccelerator_spells⟩
  obtain ⟨accelerator', hspells⟩ | ⟨e, hfaulty⟩ :=
    spells_or_faulty keysymFromName keysymToLower token
  · rw [parseAccelerator_spells hspells, Except.ok.injEq] at h
    exact h ▸ hspells
  · rw [parseAccelerator_faulty hfaulty] at h
    cases h

theorem parseAccelerator_error {token : List Char} {e : ParseError} :
    parseAccelerator keysymFromName keysymToLower token = .error e ↔
      Faulty keysymFromName token e := by
  refine ⟨fun h => ?_, parseAccelerator_faulty⟩
  obtain ⟨accelerator, hspells⟩ | ⟨e', hfaulty⟩ :=
    spells_or_faulty keysymFromName keysymToLower token
  · rw [parseAccelerator_spells hspells] at h
    cases h
  · rw [parseAccelerator_faulty hfaulty, Except.error.injEq] at h
    exact h ▸ hfaulty

theorem parseAccelerator_trim (token : List Char) :
    parseAccelerator keysymFromName keysymToLower (trim token) =
      parseAccelerator keysymFromName keysymToLower token := by
  rw [parseAccelerator, parseAccelerator, trim_trim]

/-! ## Lists of entries -/

theorem trim_ne_nil {entry : List Char} : trim entry ≠ [] ↔ notBlank entry = true := by
  simp [trim_eq_nil, notBlank]

theorem parseTokens_ok {tokens : List (List Char)} {result accelerators : List Accelerator} :
    parseTokens keysymFromName keysymToLower tokens result = .ok accelerators ↔
      ∃ more, accelerators = result ++ more ∧
        List.Forall₂ (Spells keysymFromName keysymToLower) (tokens.filter notBlank) more := by
  induction tokens generalizing result with
  | nil => simp [parseTokens, eq_comm]
  | cons token tokens ih =>
    rw [parseTokens]
    by_cases hblank : trim token = []
    · have hskip : ¬notBlank token = true := fun h => trim_ne_nil.mpr h hblank
      rw [if_pos hblank, ih, List.filter_cons_of_neg hskip]
    · rw [if_neg hblank, parseAccelerator_trim, List.filter_cons_of_pos (trim_ne_nil.mp hblank)]
      cases hparse : parseAccelerator keysymFromName keysymToLower token with
      | error e =>
        refine iff_of_false (by simp) ?_
        rintro ⟨more, -, hmore⟩
        obtain ⟨accelerator, _, hspells, -, -⟩ := List.forall₂_cons_left_iff.mp hmore
        rw [parseAccelerator_spells hspells] at hparse
        cases hparse
      | ok accelerator =>
        rw [ih]
        constructor
        · rintro ⟨more, rfl, hmore⟩
          exact ⟨accelerator :: more, by simp, .cons (parseAccelerator_ok.mp hparse) hmore⟩
        · rintro ⟨_, rfl, hmore⟩
          obtain ⟨accelerator', more, hspells, hrest, rfl⟩ := List.forall₂_cons_left_iff.mp hmore
          rw [parseAccelerator_spells hspells, Except.ok.injEq] at hparse
          exact ⟨more, by simp [hparse], hrest⟩

theorem parseTokens_error {tokens : List (List Char)} {result : List Accelerator}
    {e : ParseError} :
    parseTokens keysymFromName keysymToLower tokens result = .error e ↔
      ∃ before entry after, tokens.filter notBlank = before ++ entry :: after ∧
        (∀ entry ∈ before, ∃ accelerator, Spells keysymFromName keysymToLower entry accelerator) ∧
        Faulty keysymFromName entry e := by
  induction tokens generalizing result with
  | nil => simp [parseTokens]
  | cons token tokens ih =>
    rw [parseTokens]
    by_cases hblank : trim token = []
    · have hskip : ¬notBlank token = true := fun h => trim_ne_nil.mpr h hblank
      rw [if_pos hblank, ih, List.filter_cons_of_neg hskip]
    · rw [if_neg hblank, parseAccelerator_trim, List.filter_cons_of_pos (trim_ne_nil.mp hblank)]
      cases hparse : parseAccelerator keysymFromName keysymToLower token with
      | error e' =>
        have hfaulty := parseAccelerator_error.mp hparse
        constructor
        · rintro ⟨⟩
          exact ⟨[], token, _, rfl, by simp, hfaulty⟩
        · rintro ⟨before, entry, after, hsplit, hbefore, hentry⟩
          cases before with
          | nil =>
            obtain ⟨rfl, -⟩ := List.cons.inj hsplit
            rw [parseAccelerator_faulty hentry, Except.error.injEq] at hparse
            exact congrArg Except.error hparse.symm
          | cons first before =>
            obtain ⟨rfl, -⟩ := List.cons.inj hsplit
            obtain ⟨accelerator, hspells⟩ := hbefore token List.mem_cons_self
            rw [parseAccelerator_spells hspells] at hparse
            cases hparse
      | ok accelerator =>
        have hspells := parseAccelerator_ok.mp hparse
        rw [ih]
        constructor
        · rintro ⟨before, entry, after, hsplit, hbefore, hentry⟩
          refine ⟨token :: before, entry, after, by simp [hsplit], ?_, hentry⟩
          exact List.forall_mem_cons.mpr ⟨⟨accelerator, hspells⟩, hbefore⟩
        · rintro ⟨before, entry, after, hsplit, hbefore, hentry⟩
          cases before with
          | nil =>
            obtain ⟨rfl, -⟩ := List.cons.inj hsplit
            rw [parseAccelerator_faulty hentry] at hparse
            cases hparse
          | cons first before =>
            obtain ⟨-, hsplit⟩ := List.cons.inj hsplit
            exact ⟨before, entry, after, hsplit, (List.forall_mem_cons.mp hbefore).2, hentry⟩

theorem parseAccelerators_ok {text : List Char} {accelerators : List Accelerator} :
    parseAccelerators keysymFromName keysymToLower text = .ok accelerators ↔
      List.Forall₂ (Spells keysymFromName keysymToLower) (entries text) accelerators := by
  rw [parseAccelerators, parseTokens_ok]
  simp [entries]

/-- A text is accepted exactly if each of its entries is an accelerator, and as the list of these.
Otherwise the error is that of its first entry that is none. The entries are the pieces between
the commas that are not blank. -/
theorem accelerators_parsed (text : List Char) :
    (∀ accelerators, parseAccelerators keysymFromName keysymToLower text = .ok accelerators ↔
      List.Forall₂ (Spells keysymFromName keysymToLower) (entries text) accelerators) ∧
    (∀ e, parseAccelerators keysymFromName keysymToLower text = .error e ↔
      ∃ before entry after, entries text = before ++ entry :: after ∧
        (∀ entry ∈ before, ∃ accelerator, Spells keysymFromName keysymToLower entry accelerator) ∧
        Faulty keysymFromName entry e) ∧
    ∀ pieces, pieces ≠ [] → (∀ piece ∈ pieces, ',' ∉ piece) → text = [','].intercalate pieces →
      entries text = pieces.filter notBlank := by
  refine ⟨fun accelerators => parseAccelerators_ok, fun e => parseTokens_error, ?_⟩
  rintro pieces hne hcomma rfl
  rw [entries, List.splitOn_intercalate ',' hcomma hne]

end

end Sommelier
