import VedDb.Lib.Regex
import VedDb.PubSub.System

/-!
# Pattern subscriptions as globs

`PatternSubscription` writes a pattern as a regular expression, with `.*` for `*` and `.` for `?`.
A dot is no end of a line, and every other character is written as it is, whatever it means there.
-/

namespace VedDb

/-- A glob: `*` stands for any sequence of the characters `wild`, the characters `single` for one of
them and every other character for itself. -/
inductive Globs (single wild : Char → Prop) : List Char → List Char → Prop where
  | nil : Globs single wild [] []
  | many {pattern channel run : List Char} (hrun : ∀ c ∈ run, wild c)
      (h : Globs single wild pattern channel) :
      Globs single wild ('*' :: pattern) (run ++ channel)
  | one {pattern channel : List Char} {p c : Char} (hp : p ≠ '*' ∧ single p) (hc : wild c)
      (h : Globs single wild pattern channel) : Globs single wild (p :: pattern) (c :: channel)
  | char {pattern channel : List Char} {c : Char} (hc : c ≠ '*' ∧ ¬single c)
      (h : Globs single wild pattern channel) : Globs single wild (c :: pattern) (c :: channel)

def IsGlob (pattern channel : String) : Prop :=
  Globs (· = '?') (fun _ => True) pattern.toList channel.toList

/-- It does with no end of a line under a wildcard. -/
def IsGlobOfLine (pattern channel : String) : Prop :=
  Globs (· = '?') (· ≠ '\n') pattern.toList channel.toList

section

variable {single single' wild wild' : Char → Prop} {pattern channel : List Char}

theorem Globs.mono (hwild : ∀ c, wild c → wild' c) (h : Globs single wild pattern channel) :
    Globs single wild' pattern channel := by
  induction h with
  | nil => exact .nil
  | many hrun _ ih => exact .many (fun c hc => hwild c (hrun c hc)) ih
  | one hp hc _ ih => exact .one hp (hwild _ hc) ih
  | char hc _ ih => exact .char hc ih

theorem Globs.of_single (hsingle : ∀ p ∈ pattern, single p ↔ single' p)
    (h : Globs single wild pattern channel) : Globs single' wild pattern channel := by
  induction h with
  | nil => exact .nil
  | many hrun _ ih => exact .many hrun (ih fun p hp => hsingle p (List.mem_cons_of_mem _ hp))
  | one hp hc _ ih =>
    rw [List.forall_mem_cons] at hsingle
    exact .one ⟨hp.1, hsingle.1.mp hp.2⟩ hc (ih hsingle.2)
  | char hc _ ih =>
    rw [List.forall_mem_cons] at hsingle
    exact .char ⟨hc.1, fun h => hc.2 (hsingle.1.mpr h)⟩ (ih hsingle.2)

theorem globs_congr (hsingle : ∀ p ∈ pattern, single p ↔ single' p) :
    Globs single wild pattern channel ↔ Globs single' wild pattern channel :=
  ⟨Globs.of_single hsingle, Globs.of_single fun p hp => (hsingle p hp).symm⟩

/-- A character that stands for itself is found in every match. -/
theorem Globs.mem {p : Char} (hp : p ≠ '*' ∧ ¬single p) (h : Globs single wild pattern channel)
    (hmem : p ∈ pattern) : p ∈ channel := by
  induction h with
  | nil => exact hmem
  | many _ _ ih =>
    exact List.mem_append_right _ (ih ((List.mem_cons.mp hmem).resolve_left hp.1))
  | one hsingle _ _ ih =>
    have hne : p ≠ _ := fun heq => hp.2 (heq ▸ hsingle.2)
    exact List.mem_cons_of_mem _ (ih ((List.mem_cons.mp hmem).resolve_left hne))
  | char _ _ ih => exact List.mem_cons.mpr ((List.mem_cons.mp hmem).imp_right ih)

end

namespace PatternSubscription

def Exact (regexNew : String → Option (String → Bool)) (id : SubscriberId)
    (pattern channel : String) : Prop :=
  ∃ sub, PatternSubscription.new regexNew id pattern = .ok sub ∧
    (sub.matchesChannel channel = true ↔ IsGlob pattern channel)

/-! ## The expression of a pattern -/

/-- What a character of the pattern is in the expression. -/
def itemOf (c : Char) : Regex.Item :=
  if c = '*' then .many .dot
  else if c = '?' ∨ c = '.' then .one .dot
  else .one (.char c)

theorem toList_replaceChar (c : Char) (replacement text : String) :
    (replaceChar c replacement text).toList =
      text.toList.flatMap fun d => if d = c then replacement.toList else [d] :=
  String.toList_ofList

/-- Whatever the pattern, it is written as the items of its characters between two anchors. -/
theorem regexPattern_eq (pattern : String) :
    regexPattern pattern =
      .ofList (Regex.text (.start :: (pattern.toList.map itemOf ++ [.finish]))) := by
  have hchars : (fun c : Char =>
      (if c = '*' then ".*".toList else [c]).flatMap
        fun d => if d = '?' then ".".toList else [d]) = fun c => (itemOf c).text := by
    funext c
    unfold itemOf
    by_cases hstar : c = '*'
    · subst hstar
      rfl
    · rw [if_neg hstar, if_neg hstar, List.flatMap_singleton]
      by_cases hquestion : c = '?'
      · subst hquestion
        rfl
      · rw [if_neg hquestion]
        by_cases hdot : c = '.'
        · subst hdot
          rfl
        · rw [if_neg (not_or.mpr ⟨hquestion, hdot⟩)]
          rfl
  apply String.toList_inj.mp
  have hitems : Regex.text (.start :: (pattern.toList.map itemOf ++ [.finish])) =
      ['^'] ++ (pattern.toList.flatMap (fun c => (itemOf c).text) ++ ['$']) := by
    rw [Regex.text, List.flatMap_cons, List.flatMap_append, List.flatMap_map]
    rfl
  rw [hitems, String.toList_ofList, regexPattern, String.toList_append, String.toList_append,
    toList_replaceChar, toList_replaceChar, List.flatMap_assoc, hchars]
  exact List.append_assoc _ _ _

/-- The characters of the pattern are plain, or a wildcard or a dot. -/
def Dotted (pattern : String) : Prop :=
  ∀ c ∈ pattern.toList, c ∈ Regex.specials → c = '*' ∨ c = '?' ∨ c = '.'

theorem plain_items {pattern : String} (h : Dotted pattern) :
    ∀ item ∈ Regex.Item.start :: (pattern.toList.map itemOf ++ [.finish]), item.Plain := by
  rw [List.forall_mem_cons, List.forall_mem_append, List.forall_mem_singleton]
  refine ⟨trivial, ?_, trivial⟩
  intro item hitem
  obtain ⟨c, hc, rfl⟩ := List.mem_map.mp hitem
  unfold itemOf
  split
  · exact trivial
  next hstar =>
    split
    · exact trivial
    next hsingle =>
      intro hspecial
      exact (h c hc hspecial).elim hstar hsingle

/-! ## What it matches -/

theorem accepts_dot_iff (c : Char) : Regex.Atom.dot.accepts c = true ↔ c ≠ '\n' :=
  decide_eq_true_iff

/-- The items match what a glob does whose dots stand for one character, as the question marks. -/
theorem matchesAt_iff_globs (pattern before after : List Char) :
    Regex.MatchesAt (pattern.map itemOf ++ [.finish]) before after ↔
      Globs (fun p => p = '?' ∨ p = '.') (· ≠ '\n') pattern after := by
  induction pattern generalizing before after with
  | nil =>
    constructor
    · rintro ⟨rfl, -⟩
      exact .nil
    · intro h
      cases h
      exact ⟨rfl, trivial⟩
  | cons p pattern ih =>
    rw [List.map_cons, List.cons_append]
    unfold itemOf
    by_cases hstar : p = '*'
    · subst hstar
      rw [if_pos rfl, Regex.MatchesAt]
      constructor
      · rintro ⟨run, rest, rfl, hrun, hmatches⟩
        exact .many (fun c hc => (accepts_dot_iff c).mp (hrun c hc)) ((ih _ _).mp hmatches)
      · intro h
        cases h with
        | many hrun h =>
          exact ⟨_, _, rfl, fun c hc => (accepts_dot_iff c).mpr (hrun c hc), (ih _ _).mpr h⟩
        | one hp => exact absurd rfl hp.1
        | char hc => exact absurd rfl hc.1
    · rw [if_neg hstar]
      by_cases hsingle : p = '?' ∨ p = '.'
      · rw [if_pos hsingle, Regex.MatchesAt]
        constructor
        · rintro ⟨c, rest, rfl, hc, hmatches⟩
          exact .one ⟨hstar, hsingle⟩ ((accepts_dot_iff c).mp hc) ((ih _ _).mp hmatches)
        · intro h
          cases h with
          | many => exact absurd rfl hstar
          | one _ hc h => exact ⟨_, _, rfl, (accepts_dot_iff _).mpr hc, (ih _ _).mpr h⟩
          | char hc => exact absurd hsingle hc.2
      · rw [if_neg hsingle, Regex.MatchesAt]
        constructor
        · rintro ⟨c, rest, rfl, hc, hmatches⟩
          obtain rfl := of_decide_eq_true hc
          exact .char ⟨hstar, hsingle⟩ ((ih _ _).mp hmatches)
        · intro h
          cases h with
          | many => exact absurd rfl hstar
          | one hp => exact absurd hp.2 hsingle
          | char _ h => exact ⟨_, _, rfl, decide_eq_true rfl, (ih _ _).mpr h⟩

section

variable {regexNew : String → Option (String → Bool)} (hregex : Regex.Implements regexNew)
  (id : SubscriberId) {pattern : String}

include hregex

theorem new_spec (hdotted : Dotted pattern) :
    ∃ sub, PatternSubscription.new regexNew id pattern = .ok sub ∧
      ∀ channel, sub.matchesChannel channel = true ↔
        Globs (fun p => p = '?' ∨ p = '.') (· ≠ '\n') pattern.toList channel.toList := by
  obtain ⟨isMatch, hnew, hmatch⟩ := hregex _ (plain_items hdotted)
  rw [← regexPattern_eq] at hnew
  refine ⟨⟨id, isMatch, pattern⟩, ?_, ?_⟩
  · rw [PatternSubscription.new, hnew]
  · intro channel
    rw [matchesChannel, hmatch, Regex.foundIn_anchored_iff, matchesAt_iff_globs]

/-- Where no character of the pattern but its wildcards is special, the subscription matches as a
glob exactly when a match needs no end of a line under a wildcard. -/
theorem patternExact_iff (hordinary : ∀ c ∈ pattern.toList, c ∈ Regex.specials → c = '*' ∨ c = '?')
    (channel : String) :
    Exact regexNew id pattern channel ↔
      (IsGlob pattern channel → IsGlobOfLine pattern channel) := by
  have hdotted : Dotted pattern := fun c hc hspecial =>
    (hordinary c hc hspecial).imp_right Or.inl
  obtain ⟨sub, hnew, hmatch⟩ := new_spec hregex id hdotted
  have hnodot : '.' ∉ pattern.toList := by
    intro hdot
    have hwild := hordinary '.' hdot (by decide)
    revert hwild
    decide
  have hline : sub.matchesChannel channel = true ↔ IsGlobOfLine pattern channel := by
    rw [hmatch]
    apply globs_congr
    intro p hp
    exact or_iff_left fun hdot => hnodot (hdot ▸ hp)
  constructor
  · rintro ⟨other, hother, hiff⟩ hglob
    obtain rfl := Except.ok.inj (hnew.symm.trans hother)
    exact hline.mp (hiff.mpr hglob)
  · intro hlines
    refine ⟨sub, hnew, hline.trans ⟨?_, hlines⟩⟩
    exact Globs.mono fun _ _ => trivial

omit hregex in
theorem patternExact_iff_prefix : Exact Regex.engine 1 "a*" "abc" := by
  have hordinary : ∀ c ∈ "a*".toList, c ∈ Regex.specials → c = '*' ∨ c = '?' := by
    have hpattern : "a*".toList = ['a', '*'] := rfl
    rw [hpattern, List.forall_mem_cons, List.forall_mem_singleton]
    decide
  refine (patternExact_iff Regex.implements_engine 1 hordinary "abc").mpr fun _ => ?_
  have hrun : Globs (· = '?') (· ≠ '\n') ['*'] (['b', 'c'] ++ []) := .many (by simp) .nil
  have hglob : Globs (· = '?') (· ≠ '\n') ['a', '*'] ['a', 'b', 'c'] := .char (by decide) hrun
  exact hglob

omit hregex in
/-- The dot of a pattern matches any character. -/
theorem dot_matches_letter : ¬Exact Regex.engine 1 "a.c" "abc" := by
  rintro ⟨sub, hnew, hiff⟩
  have hdotted : Dotted "a.c" := by
    have hpattern : "a.c".toList = ['a', '.', 'c'] := rfl
    rw [Dotted, hpattern, List.forall_mem_cons, List.forall_mem_cons, List.forall_mem_singleton]
    decide
  obtain ⟨other, hother, hmatch⟩ := new_spec Regex.implements_engine 1 hdotted
  obtain rfl := Except.ok.inj (hnew.symm.trans hother)
  have hfound : Globs (fun p => p = '?' ∨ p = '.') (· ≠ '\n') ['a', '.', 'c'] ['a', 'b', 'c'] :=
    .char (by decide) (.one (by decide) (by decide) (.char (by decide) .nil))
  have hglob := hiff.mp ((hmatch "abc").mpr hfound)
  have hmem : '.' ∈ "abc".toList := hglob.mem (by decide) (by decide)
  revert hmem
  decide

end

end PatternSubscription

end VedDb
