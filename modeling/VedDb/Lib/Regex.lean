import Mathlib.Tactic.Common

/-!
# Regular expressions without groups

Anchors, characters and dots, and stars on characters and dots, with the meaning they have over a
text of one string: an anchor is the start or the end of the text, a dot is any character but the
end of a line, and an expression is found wherever it matches.
-/

namespace Regex

inductive Atom where
  | char (c : Char)
  | dot
deriving DecidableEq

inductive Item where
  | start
  | finish
  | one (a : Atom)
  | many (a : Atom)
deriving DecidableEq

/-- The characters that do not stand for themselves. -/
def specials : List Char := "\\.+*?()|[\x7b^$".toList

namespace Atom

def accepts : Atom → Char → Bool
  | .char c, d => d = c
  | .dot, d => d ≠ '\n'

def text : Atom → Char
  | .char c => c
  | .dot => '.'

/-- A character can be written without an escape. -/
def Plain : Atom → Prop
  | .char c => c ∉ specials
  | .dot => True

end Atom

namespace Item

def text : Item → List Char
  | .start => ['^']
  | .finish => ['$']
  | .one a => [a.text]
  | .many a => [a.text, '*']

def Plain : Item → Prop
  | .start | .finish => True
  | .one a | .many a => a.Plain

end Item

/-- The expression as it is written. -/
def text (items : List Item) : List Char := items.flatMap Item.text

/-! ## Meaning -/

/-- The items match behind one part of the text, at the beginning of the other. -/
def MatchesAt : List Item → List Char → List Char → Prop
  | [], _, _ => True
  | .start :: items, before, after => before = [] ∧ MatchesAt items before after
  | .finish :: items, before, after => after = [] ∧ MatchesAt items before after
  | .one a :: items, before, after =>
    ∃ c rest, after = c :: rest ∧ a.accepts c = true ∧ MatchesAt items (before ++ [c]) rest
  | .many a :: items, before, after =>
    ∃ run rest, after = run ++ rest ∧ (∀ c ∈ run, a.accepts c = true) ∧
      MatchesAt items (before ++ run) rest

/-- The expression matches somewhere in the text. -/
def FoundIn (items : List Item) (text : List Char) : Prop :=
  ∃ before after, text = before ++ after ∧ MatchesAt items before after

/-- A compiler of regular expressions takes these expressions and finds them where they match. -/
def Implements (regexNew : String → Option (String → Bool)) : Prop :=
  ∀ items : List Item, (∀ item ∈ items, item.Plain) →
    ∃ isMatch, regexNew (.ofList (text items)) = some isMatch ∧
      ∀ s, isMatch s = true ↔ FoundIn items s.toList

/-- Between the two anchors an expression is to match the whole text. -/
theorem foundIn_anchored_iff (items : List Item) (text : List Char) :
    FoundIn (.start :: items) text ↔ MatchesAt items [] text := by
  constructor
  · rintro ⟨before, after, rfl, hbefore, hmatches⟩
    rw [hbefore] at hmatches ⊢
    exact hmatches
  · intro hmatches
    exact ⟨[], text, rfl, rfl, hmatches⟩

/-! ## A matcher -/

/-- Zero or more characters that the atom accepts, and then what `rest` matches. -/
def manyThen (a : Atom) (rest : Bool → List Char → Bool) : Bool → List Char → Bool
  | atStart, [] => rest atStart []
  | atStart, c :: cs =>
    rest atStart (c :: cs) || (a.accepts c && manyThen a rest false cs)

def matchesAt : List Item → Bool → List Char → Bool
  | [], _, _ => true
  | .start :: items, atStart, cs => atStart && matchesAt items atStart cs
  | .finish :: items, atStart, cs => cs.isEmpty && matchesAt items atStart cs
  | .one _ :: _, _, [] => false
  | .one a :: items, _, c :: cs => a.accepts c && matchesAt items false cs
  | .many a :: items, atStart, cs => manyThen a (matchesAt items) atStart cs

def search (items : List Item) : Bool → List Char → Bool
  | atStart, [] => matchesAt items atStart []
  | atStart, c :: cs => matchesAt items atStart (c :: cs) || search items false cs

def atomOf (c : Char) : Option Atom :=
  if c = '.' then some .dot else if c ∈ specials then none else some (.char c)

def parse : List Char → Option (List Item)
  | [] => some []
  | c :: cs =>
    if c = '^' then (parse cs).map (.start :: ·)
    else if c = '$' then (parse cs).map (.finish :: ·)
    else
      match atomOf c with
      | none => none
      | some a =>
        match cs with
        | '*' :: rest => (parse rest).map (.many a :: ·)
        | cs => (parse cs).map (.one a :: ·)

/-- Compile an expression and look for it. -/
def engine (source : String) : Option (String → Bool) :=
  (parse source.toList).map fun items s => search items true s.toList

/-! ## The matcher is right -/

theorem manyThen_iff {a : Atom} {rest : Bool → List Char → Bool}
    {meets : List Char → List Char → Prop}
    (hrest : ∀ before after, meets before after ↔ rest before.isEmpty after = true)
    (before after : List Char) :
    manyThen a rest before.isEmpty after = true ↔
      ∃ run tail, after = run ++ tail ∧ (∀ c ∈ run, a.accepts c = true) ∧
        meets (before ++ run) tail := by
  induction after generalizing before with
  | nil =>
    rw [manyThen, ← hrest]
    constructor
    · intro hmeets
      refine ⟨[], [], rfl, fun c hc => ?_, ?_⟩
      · cases hc
      · rw [List.append_nil]
        exact hmeets
    · rintro ⟨run, tail, hsplit, -, hmeets⟩
      obtain ⟨rfl, rfl⟩ := List.append_eq_nil_iff.mp hsplit.symm
      rw [List.append_nil] at hmeets
      exact hmeets
  | cons c cs ih =>
    have hnext := ih (before ++ [c])
    rw [show (before ++ [c]).isEmpty = false by simp] at hnext
    rw [manyThen, Bool.or_eq_true, Bool.and_eq_true, hnext, ← hrest]
    constructor
    · rintro (hmeets | ⟨hc, run, tail, rfl, hrun, hmeets⟩)
      · refine ⟨[], c :: cs, rfl, fun c hc => ?_, ?_⟩
        · cases hc
        · rw [List.append_nil]
          exact hmeets
      · refine ⟨c :: run, tail, rfl, List.forall_mem_cons.mpr ⟨hc, hrun⟩, ?_⟩
        rw [List.append_assoc] at hmeets
        exact hmeets
    · rintro ⟨run, tail, hsplit, hrun, hmeets⟩
      cases run with
      | nil =>
        rw [List.append_nil] at hmeets
        rw [List.nil_append] at hsplit
        exact .inl (hsplit ▸ hmeets)
      | cons d run =>
        obtain ⟨rfl, rfl⟩ := List.cons.inj hsplit
        rw [List.forall_mem_cons] at hrun
        refine .inr ⟨hrun.1, run, tail, rfl, hrun.2, ?_⟩
        rw [List.append_assoc]
        exact hmeets

theorem matchesAt_iff (items : List Item) (before after : List Char) :
    MatchesAt items before after ↔ matchesAt items before.isEmpty after = true := by
  induction items generalizing before after with
  | nil => exact iff_of_true trivial rfl
  | cons item items ih =>
    cases item with
    | start =>
      rw [MatchesAt, matchesAt, Bool.and_eq_true, ih, List.isEmpty_iff]
    | finish =>
      rw [MatchesAt, matchesAt, Bool.and_eq_true, ih, List.isEmpty_iff]
    | one a =>
      rw [MatchesAt]
      cases after with
      | nil =>
        rw [matchesAt]
        refine iff_of_false ?_ Bool.false_ne_true
        rintro ⟨c, rest, hsplit, -⟩
        cases hsplit
      | cons c cs =>
        have hnext := ih (before ++ [c]) cs
        rw [show (before ++ [c]).isEmpty = false by simp] at hnext
        rw [matchesAt, Bool.and_eq_true, ← hnext]
        constructor
        · rintro ⟨d, rest, hsplit, hd, hmatches⟩
          obtain ⟨rfl, rfl⟩ := List.cons.inj hsplit
          exact ⟨hd, hmatches⟩
        · rintro ⟨hc, hmatches⟩
          exact ⟨c, cs, rfl, hc, hmatches⟩
    | many a =>
      rw [MatchesAt, matchesAt]
      exact (manyThen_iff ih before after).symm

theorem search_iff (items : List Item) (before text : List Char) :
    search items before.isEmpty text = true ↔
      ∃ passed after, text = passed ++ after ∧ MatchesAt items (before ++ passed) after := by
  induction text generalizing before with
  | nil =>
    rw [search, ← matchesAt_iff]
    constructor
    · intro hmatches
      refine ⟨[], [], rfl, ?_⟩
      rw [List.append_nil]
      exact hmatches
    · rintro ⟨passed, after, hsplit, hmatches⟩
      obtain ⟨rfl, rfl⟩ := List.append_eq_nil_iff.mp hsplit.symm
      rw [List.append_nil] at hmatches
      exact hmatches
  | cons c cs ih =>
    have hnext := ih (before ++ [c])
    rw [show (before ++ [c]).isEmpty = false by simp] at hnext
    rw [search, Bool.or_eq_true, ← matchesAt_iff, hnext]
    constructor
    · rintro (hmatches | ⟨passed, after, rfl, hmatches⟩)
      · refine ⟨[], c :: cs, rfl, ?_⟩
        rw [List.append_nil]
        exact hmatches
      · refine ⟨c :: passed, after, rfl, ?_⟩
        rw [List.append_assoc] at hmatches
        exact hmatches
    · rintro ⟨passed, after, hsplit, hmatches⟩
      cases passed with
      | nil =>
        rw [List.append_nil] at hmatches
        rw [List.nil_append] at hsplit
        exact .inl (hsplit ▸ hmatches)
      | cons d passed =>
        obtain ⟨rfl, rfl⟩ := List.cons.inj hsplit
        refine .inr ⟨passed, after, rfl, ?_⟩
        rw [List.append_assoc]
        exact hmatches

theorem search_eq_true_iff (items : List Item) (text : List Char) :
    search items true text = true ↔ FoundIn items text :=
  search_iff items [] text

/-! ## The parser is right -/

theorem atomOf_text {a : Atom} (h : a.Plain) :
    atomOf a.text = some a ∧ a.text ≠ '^' ∧ a.text ≠ '$' ∧ a.text ≠ '*' := by
  cases a with
  | dot => decide
  | char c =>
    have hne (d : Char) (hd : d ∈ specials) : c ≠ d := fun heq => h (heq ▸ hd)
    refine ⟨?_, hne _ (by decide), hne _ (by decide), hne _ (by decide)⟩
    show atomOf c = _
    rw [atomOf, if_neg (hne _ (by decide)), if_neg h]

theorem text_ne_star {items : List Item} (h : ∀ item ∈ items, item.Plain) (rest : List Char) :
    text items ≠ '*' :: rest := by
  cases items with
  | nil =>
    intro heq
    cases heq
  | cons item items =>
    have hitem := h item List.mem_cons_self
    intro heq
    rw [text, List.flatMap_cons] at heq
    cases item with
    | start => exact absurd (List.cons.inj heq).1 (by decide)
    | finish => exact absurd (List.cons.inj heq).1 (by decide)
    | one a => exact (atomOf_text hitem).2.2.2 (List.cons.inj heq).1
    | many a => exact (atomOf_text hitem).2.2.2 (List.cons.inj heq).1

theorem parse_text {items : List Item} (h : ∀ item ∈ items, item.Plain) :
    parse (text items) = some items := by
  induction items with
  | nil => rfl
  | cons item items ih =>
    rw [List.forall_mem_cons] at h
    have hrest := ih h.2
    rw [text, List.flatMap_cons]
    change parse (item.text ++ text items) = _
    cases item with
    | start =>
      show parse ('^' :: text items) = _
      rw [parse, if_pos rfl, hrest]
      rfl
    | finish =>
      show parse ('$' :: text items) = _
      rw [parse, if_neg (by decide), if_pos rfl, hrest]
      rfl
    | one a =>
      obtain ⟨hatom, hstart, hfinish, -⟩ := atomOf_text h.1
      show parse (a.text :: text items) = _
      rw [parse, if_neg hstart, if_neg hfinish, hatom]
      dsimp only
      split
      next rest heq => exact absurd heq (text_ne_star h.2 rest)
      next =>
        rw [hrest]
        rfl
    | many a =>
      obtain ⟨hatom, hstart, hfinish, -⟩ := atomOf_text h.1
      show parse (a.text :: '*' :: text items) = _
      rw [parse, if_neg hstart, if_neg hfinish, hatom]
      show (parse (text items)).map _ = _
      rw [hrest]
      rfl

/-- The matcher takes every expression as it is written and finds it where it matches. -/
theorem implements_engine : Implements engine := by
  intro items hplain
  refine ⟨fun s => search items true s.toList, ?_, ?_⟩
  · rw [engine, String.toList_ofList, parse_text hplain]
    rfl
  · intro s
    exact search_eq_true_iff items s.toList

end Regex
