import Mathlib.Data.List.TakeWhile
import Mathlib.Tactic.Common
import VedDb.Lib.LittleEndian

/-!
# Self-delimiting codes

A code whose words mark their own end: a word is read back whatever follows it.  Concatenated words
are taken apart by reading one, dropping as many bytes as it has, and going on.
-/

namespace SelfDelimiting

open LittleEndian

/-! ## Fields of fixed width -/

/-- The little-endian number in the first `w` bytes, and the bytes behind it. -/
def word (w : Nat) (bytes : Bytes) : Nat × Bytes := (ofLeBytes (bytes.take w), bytes.drop w)

theorem word_append {w n : Nat} (hn : n < 256 ^ w) (rest : Bytes) :
    word w (leBytes w n ++ rest) = (n, rest) := by
  have hlen : (leBytes w n).length = w := leBytes_length w n
  rw [word, List.take_left' hlen, List.drop_left' hlen, ofLeBytes_leBytes_of_lt hn]

@[simp] theorem word_snd_length (w : Nat) (bytes : Bytes) :
    (word w bytes).2.length = bytes.length - w := List.length_drop

/-- A field is read without a look at what follows it. -/
theorem word_append_of_le {w : Nat} {bytes : Bytes} (h : w ≤ bytes.length) (rest : Bytes) :
    word w (bytes ++ rest) = ((word w bytes).1, (word w bytes).2 ++ rest) := by
  rw [word, List.take_append_of_le_length h, List.drop_append_of_le_length h, word]

theorem word_lt (w : Nat) (bytes : Bytes) : (word w bytes).1 < 256 ^ w := by
  have hlt := ofLeBytes_lt (bytes.take w)
  have hlen : (bytes.take w).length ≤ w := List.length_take_le w bytes
  rw [word]
  exact hlt.trans_le (Nat.pow_le_pow_right (by decide) hlen)

/-- A field that was read is written as the bytes it was read from. -/
theorem leBytes_word {w : Nat} {bytes : Bytes} (h : w ≤ bytes.length) :
    leBytes w (word w bytes).1 ++ (word w bytes).2 = bytes := by
  have hlen : (bytes.take w).length = w := List.length_take_of_le h
  have hfield := leBytes_ofLeBytes (bytes.take w)
  rw [hlen] at hfield
  rw [word, hfield, List.take_append_drop]

theorem word_uint8 (n : UInt8) (rest : Bytes) :
    word 1 (leBytes 1 n.toNat ++ rest) = (n.toNat, rest) := word_append n.toNat_lt rest

theorem word_uint16 (n : UInt16) (rest : Bytes) :
    word 2 (leBytes 2 n.toNat ++ rest) = (n.toNat, rest) := word_append n.toNat_lt rest

theorem word_uint32 (n : UInt32) (rest : Bytes) :
    word 4 (leBytes 4 n.toNat ++ rest) = (n.toNat, rest) := word_append n.toNat_lt rest

theorem word_uint64 (n : UInt64) (rest : Bytes) :
    word 8 (leBytes 8 n.toNat ++ rest) = (n.toNat, rest) := word_append n.toNat_lt rest

/-! ## Codes -/

/-- Words are never empty, so that reading on makes progress. -/
structure Code (α : Type) where
  encode : α → Bytes
  decode : Bytes → Option α
  encode_ne_nil : ∀ a, encode a ≠ []

namespace Code

variable {α : Type} (code : Code α)

/-- The word of `a` is read back, whatever follows. -/
def Reads (a : α) : Prop := ∀ rest, code.decode (code.encode a ++ rest) = some a

/-- Take a stream apart to its end. -/
def split (stream : Bytes) : Option (List α) :=
  if stream = [] then some []
  else
    match code.decode stream with
    | none => none
    | some a => (split (stream.drop (code.encode a).length)).map (a :: ·)
termination_by stream.length
decreasing_by
  have hword : 0 < (code.encode a).length := List.length_pos_iff.mpr (code.encode_ne_nil a)
  have hstream : 0 < stream.length := List.length_pos_iff.mpr ‹_›
  rw [List.length_drop]
  omega

variable {code}

@[simp] theorem split_nil : code.split [] = some [] := by
  rw [split, if_pos rfl]

/-- A word at the front is taken off. -/
theorem split_append {a : α} (h : code.Reads a) (stream : Bytes) :
    code.split (code.encode a ++ stream) = (code.split stream).map (a :: ·) := by
  have hne : code.encode a ++ stream ≠ [] := by
    intro hnil
    exact code.encode_ne_nil a (List.append_eq_nil_iff.mp hnil).1
  rw [split, if_neg hne, h stream]
  dsimp only
  rw [List.drop_left]

/-- Concatenated words are taken apart into what they stand for. -/
theorem split_flatten {as : List α} (h : ∀ a ∈ as, code.Reads a) :
    code.split (as.map code.encode).flatten = some as := by
  induction as with
  | nil => exact split_nil
  | cons a as ih =>
    rw [List.map_cons, List.flatten_cons, split_append (h a List.mem_cons_self),
      ih fun b hb => h b (List.mem_cons_of_mem a hb)]
    rfl

/-- Words at the front of a concatenation are the first ones of it. -/
theorem eq_append_of_flatten {as bs : List α} {tail : Bytes} (has : ∀ a ∈ as, code.Reads a)
    (hbs : ∀ b ∈ bs, code.Reads b)
    (h : (as.map code.encode).flatten ++ tail = (bs.map code.encode).flatten) :
    ∃ rest, bs = as ++ rest ∧ tail = (rest.map code.encode).flatten := by
  induction as generalizing bs with
  | nil => exact ⟨bs, rfl, h⟩
  | cons a as ih =>
    rw [List.map_cons, List.flatten_cons, List.append_assoc] at h
    cases bs with
    | nil =>
      have hnil := (List.append_eq_nil_iff.mp h).1
      exact absurd hnil (code.encode_ne_nil a)
    | cons b bs =>
      rw [List.map_cons, List.flatten_cons] at h
      have hsame : some a = some b := by
        rw [← has a List.mem_cons_self, h, hbs b List.mem_cons_self]
      have hab := Option.some.inj hsame
      rw [← hab] at h ⊢
      obtain ⟨rest, hrest, htail⟩ := ih (fun c hc => has c (List.mem_cons_of_mem a hc))
        (fun c hc => hbs c (List.mem_cons_of_mem b hc)) (List.append_cancel_left h)
      exact ⟨rest, by rw [hrest, List.cons_append], htail⟩

end Code

end SelfDelimiting

/-!
## Texts joined by a separator

A key `name ++ sep :: rest` is read back by looking for the separator.  The first one ends the name
if the name holds none, the last one begins the rest if the rest holds none.  A reader that asks for
keys that start with `name ++ [sep]` also gets those of longer names that start so.
-/

namespace Separated

variable {α : Type} {sep : α}

-- Two texts that agree up to their first separators agree before them.
theorem append_cons_left_inj {a b x y : List α} (ha : sep ∉ a) (hb : sep ∉ b)
    (h : a ++ sep :: x = b ++ sep :: y) : a = b ∧ x = y := by
  induction a generalizing b with
  | nil =>
    cases b with
    | nil => exact ⟨rfl, (List.cons.inj h).2⟩
    | cons head b =>
      have hhead := (List.cons.inj h).1
      rw [hhead] at hb
      exact absurd List.mem_cons_self hb
  | cons head a ih =>
    cases b with
    | nil =>
      have hhead := (List.cons.inj h).1
      rw [← hhead] at ha
      exact absurd List.mem_cons_self ha
    | cons head' b =>
      obtain ⟨rfl, htail⟩ := List.cons.inj h
      obtain ⟨rfl, hrest⟩ := ih (fun hmem => ha (List.mem_cons_of_mem _ hmem))
        (fun hmem => hb (List.mem_cons_of_mem _ hmem)) htail
      exact ⟨rfl, hrest⟩

-- Two texts that agree from their last separators on agree before them.
theorem append_cons_right_inj {a b x y : List α} (hx : sep ∉ x) (hy : sep ∉ y)
    (h : a ++ sep :: x = b ++ sep :: y) : a = b ∧ x = y := by
  have hreverse := congrArg List.reverse h
  rw [List.reverse_append, List.reverse_append, List.reverse_cons, List.reverse_cons,
    List.append_assoc, List.append_assoc] at hreverse
  rw [← List.mem_reverse] at hx hy
  obtain ⟨hrest, hname⟩ := append_cons_left_inj hx hy hreverse
  exact ⟨List.reverse_inj.mp hname, List.reverse_inj.mp hrest⟩

-- The names whose keys start with a given name and the separator.
theorem prefix_append_cons_iff {a b x : List α} (hx : sep ∉ x) :
    a ++ [sep] <+: b ++ sep :: x ↔ a = b ∨ a ++ [sep] <+: b := by
  constructor
  · intro ⟨rest, hrest⟩
    rw [List.append_assoc, List.singleton_append, List.append_eq_append_iff] at hrest
    rcases hrest with ⟨c, hb, hc⟩ | ⟨c, ha, hc⟩
    · cases c with
      | nil => exact .inl (by rw [hb, List.append_nil])
      | cons head c =>
        rw [← (List.cons.inj hc).1] at hb
        exact .inr ⟨c, by rw [hb, List.append_assoc, List.singleton_append]⟩
    · cases c with
      | nil => exact .inl (by rw [ha, List.append_nil])
      | cons head c =>
        have hmem : sep ∈ x := by
          rw [(List.cons.inj hc).2]
          exact List.mem_append_right _ List.mem_cons_self
        exact absurd hmem hx
  · intro h
    by_cases hab : a = b
    · rw [hab]
      exact ⟨x, by rw [List.append_assoc, List.singleton_append]⟩
    · exact (h.resolve_left hab).trans (List.prefix_append _ _)

-- What stands before the first separator is unchanged by a separator further on.
theorem takeWhile_append_cons_eq [DecidableEq α] (sep : α) (a rest : List α) :
    (a ++ sep :: rest).takeWhile (· ≠ sep) = a.takeWhile (· ≠ sep) := by
  induction a with
  | nil => simp
  | cons c a ih =>
    rw [List.cons_append, List.takeWhile_cons, List.takeWhile_cons, ih]

theorem takeWhile_eq_self [DecidableEq α] {a : List α} (ha : sep ∉ a) :
    a.takeWhile (· ≠ sep) = a := by
  rw [List.takeWhile_eq_self_iff]
  intro c hc
  have hne : c ≠ sep := fun heq => ha (heq ▸ hc)
  simpa using hne

theorem takeWhile_append_cons [DecidableEq α] {a rest : List α} (ha : sep ∉ a) :
    (a ++ sep :: rest).takeWhile (· ≠ sep) = a := by
  rw [takeWhile_append_cons_eq, takeWhile_eq_self ha]

-- The last separator, looked for from the end.
theorem takeWhile_reverse_append_cons [DecidableEq α] (a : List α) {rest : List α}
    (hrest : sep ∉ rest) : (a ++ sep :: rest).reverse.takeWhile (· ≠ sep) = rest.reverse := by
  rw [List.reverse_append, List.reverse_cons, List.append_assoc, List.singleton_append]
  exact takeWhile_append_cons (mt List.mem_reverse.mp hrest)

theorem dropWhile_reverse_append_cons [DecidableEq α] (a : List α) {rest : List α}
    (hrest : sep ∉ rest) :
    (a ++ sep :: rest).reverse.dropWhile (· ≠ sep) = sep :: a.reverse := by
  have hsplit := List.takeWhile_append_dropWhile (p := (· ≠ sep)) (l := (a ++ sep :: rest).reverse)
  rw [takeWhile_reverse_append_cons a hrest] at hsplit
  rw [← List.append_right_inj rest.reverse, hsplit, List.reverse_append, List.reverse_cons,
    List.append_assoc, List.singleton_append]

-- A text without the separator, found across it, is found on one side.
theorem infix_append_cons_iff {text a b : List α} {c : α} (hsep : sep ∉ text) (hmem : c ∈ text)
    (hc : c ∉ b) : text <:+: a ++ sep :: b ↔ text <:+: a := by
  constructor
  · intro ⟨before, behind, h⟩
    rw [List.append_assoc, List.append_eq_append_iff] at h
    rcases h with ⟨rest, ha, hrest⟩ | ⟨rest, hbefore, hrest⟩
    · rw [List.append_eq_append_iff] at hrest
      rcases hrest with ⟨more, hfound, -⟩ | ⟨more, hcut, hmore⟩
      · exact ⟨before, more, by rw [ha, hfound, List.append_assoc]⟩
      · cases more with
        | nil => exact ⟨before, [], by rw [ha, hcut, List.append_nil, List.append_nil]⟩
        | cons head more =>
          rw [hcut, (List.cons.inj hmore).1] at hsep
          exact absurd (List.mem_append_right _ List.mem_cons_self) hsep
    · cases rest with
      | nil =>
        cases text with
        | nil => exact absurd hmem List.not_mem_nil
        | cons head text =>
          rw [(List.cons.inj hrest).1] at hsep
          exact absurd List.mem_cons_self hsep
      | cons head rest =>
        rw [(List.cons.inj hrest).2] at hc
        exact absurd (List.mem_append_right _ (List.mem_append_left _ hmem)) hc
  · intro h
    exact h.trans (List.prefix_append _ _).isInfix

theorem eq_takeWhile_append_cons [DecidableEq α] {l : List α} (h : sep ∈ l) :
    sep ∉ l.takeWhile (· ≠ sep) ∧ ∃ rest, l = l.takeWhile (· ≠ sep) ++ sep :: rest := by
  obtain ⟨before, rest, hsplit, hbefore⟩ := List.eq_append_cons_of_mem h
  rw [hsplit, takeWhile_append_cons hbefore]
  exact ⟨hbefore, rest, rfl⟩

end Separated
