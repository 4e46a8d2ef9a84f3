import Mathlib.Logic.Function.Iterate
import Mathlib.Tactic.Common

/-!
# Replaying a log of register operations

A log acts on registers that hold serialised records.  Each operation leaves a register alone,
overwrites it, or amends it: decodes the record it holds, merges changes of some fields into it and
encodes the result.  An amendment of a register that is empty, or whose contents no longer decode,
does nothing.

A field need not be read back as the value that was written, so an amendment may also change the
fields it does not name.  Replaying a log after any prefix of it has already been applied gives what
replaying it once gives exactly when those fields have settled by then.
-/

namespace RegisterLog

universe u v w x y z

/-! ## Reading a field back -/

section Fields

variable {υ : Type w} {κ : Type x} {ν : Type y} (reread : κ → ν → Option ν)
  (change : υ → κ → Option ν)

/-- A field after it was written and read once more. -/
def readBack (k : κ) (value : Option ν) : Option ν := value.bind (reread k)

/-- However often the value is written and read again, it is not refused. -/
def Lasting (k : κ) (value : ν) : Prop := ∀ n, ((readBack reread k)^[n] (some value)).isSome

def Refused (u : υ) : Prop := ∃ k value, change u k = some value ∧ reread k value = none

/-- A change that no record is ever refused for. -/
def Clean (u : υ) : Prop := ∀ k value, change u k = some value → Lasting reread k value

open Classical in
/-- The changes that take effect: those up to and including the first one after which the record is
refused. -/
noncomputable def effective : List υ → List υ
  | [] => []
  | u :: us => if Refused reread change u then [u] else u :: effective us

/-- The fields of a record that no change names have settled when all changes have been made, unless
the first of them makes the record unreadable. -/
def Settles (fields : κ → Option ν) : List υ → Prop
  | [] => True
  | u :: us => Refused reread change u ∨
      ∀ k, change u k = none → (∀ u' ∈ effective reread change us, change u' k = none) →
        (readBack reread k)^[(effective reread change us).length + 1] (fields k) =
          (readBack reread k)^[(effective reread change us).length] (fields k)

variable {reread change}

theorem Lasting.next {k : κ} {value : ν} (h : Lasting reread k value) :
    ∃ value', reread k value = some value' ∧ Lasting reread k value' := by
  obtain ⟨value', hvalue⟩ := Option.isSome_iff_exists.mp (h 1)
  have hread : reread k value = some value' := hvalue
  refine ⟨value', hread, ?_⟩
  intro n
  have hnext := h (n + 1)
  rw [Function.iterate_succ_apply] at hnext
  show ((readBack reread k)^[n] (some value')).isSome
  rw [← hread]
  exact hnext

theorem Clean.not_refused {u : υ} (h : Clean reread change u) : ¬Refused reread change u := by
  rintro ⟨k, value, hchange, hnone⟩
  obtain ⟨value', hread, -⟩ := (h k value hchange).next
  rw [hnone] at hread
  cases hread

theorem effective_append_of_clean {us : List υ} (h : ∀ u ∈ us, Clean reread change u)
    (vs : List υ) :
    effective reread change (us ++ vs) = us ++ effective reread change vs := by
  induction us with
  | nil => rfl
  | cons u us ih =>
    rw [List.cons_append, effective, if_neg (h u List.mem_cons_self).not_refused,
      ih (fun x hx => h x (List.mem_cons_of_mem _ hx)), List.cons_append]

theorem effective_append_of_refused {us : List υ} (h : ∃ u ∈ us, Refused reread change u)
    (vs : List υ) :
    effective reread change (us ++ vs) = effective reread change us := by
  induction us with
  | nil => simp at h
  | cons u us ih =>
    rw [List.cons_append, effective, effective]
    by_cases hu : Refused reread change u
    · rw [if_pos hu, if_pos hu]
    · obtain ⟨x, hx, hxu⟩ := h
      rcases List.mem_cons.mp hx with rfl | hx
      · exact absurd hxu hu
      · rw [if_neg hu, if_neg hu, ih ⟨x, hx, hxu⟩]

variable (reread change)

def rewrite (k : κ) (value : Option ν) (u : υ) : Option ν :=
  (change u k).or (readBack reread k value)

variable {reread change}

-- A field that is set by some change no longer depends on what it was before.
theorem foldl_rewrite_of_set {us : List υ} {k : κ} (h : ∃ u ∈ us, change u k ≠ none)
    (a b : Option ν) :
    us.foldl (rewrite reread change k) a = us.foldl (rewrite reread change k) b := by
  induction us generalizing a b with
  | nil => simp at h
  | cons u us ih =>
    rw [List.foldl_cons, List.foldl_cons]
    obtain ⟨x, hx, hset⟩ := h
    rcases List.mem_cons.mp hx with rfl | hx
    · obtain ⟨value, hvalue⟩ := Option.ne_none_iff_exists'.mp hset
      rw [rewrite, rewrite, hvalue, Option.some_or, Option.some_or]
    · exact ih ⟨x, hx, hset⟩ _ _

theorem foldl_rewrite_of_unset {us : List υ} {k : κ} (h : ∀ u ∈ us, change u k = none)
    (a : Option ν) :
    us.foldl (rewrite reread change k) a = (readBack reread k)^[us.length] a := by
  induction us generalizing a with
  | nil => rfl
  | cons u us ih =>
    rw [List.foldl_cons, rewrite, h u List.mem_cons_self, Option.none_or,
      ih (fun x hx => h x (List.mem_cons_of_mem _ hx)), List.length_cons,
      Function.iterate_succ_apply]

-- Once a value is read back as itself, it stays.
theorem iterate_add_of_fixed {α : Type*} {f : α → α} {a : α} {n : ℕ}
    (h : f^[n + 1] a = f^[n] a) (m : ℕ) : f^[n + m] a = f^[n] a := by
  induction m with
  | zero => rfl
  | succ m ih =>
    rw [← Nat.add_assoc, Function.iterate_succ_apply', ih]
    exact (Function.iterate_succ_apply' f n a).symm.trans h

/-! ### Values read back as written -/

theorem lasting_of_fixed {k : κ} {value : ν} (h : reread k value = some value) :
    Lasting reread k value := by
  intro n
  have hfixed : readBack reread k (some value) = some value := h
  rw [Function.iterate_fixed hfixed]
  rfl

theorem clean_or_refused_of_fixed (h : ∀ k value value', reread k value = some value' →
    value' = value) (u : υ) : Clean reread change u ∨ Refused reread change u := by
  by_cases hu : Refused reread change u
  · exact .inr hu
  · refine .inl fun k value hchange => ?_
    cases hread : reread k value with
    | none => exact absurd ⟨k, value, hchange, hread⟩ hu
    | some value' => exact lasting_of_fixed (hread.trans (congrArg some (h k value value' hread)))

theorem settles_of_fixed {fields : κ → Option ν}
    (h : ∀ k value, fields k = some value → reread k value = some value) (us : List υ) :
    Settles reread change fields us := by
  cases us with
  | nil => trivial
  | cons u us =>
    refine .inr fun k _ _ => ?_
    have hfixed : readBack reread k (fields k) = fields k := by
      cases hvalue : fields k with
      | none => rfl
      | some value => exact h k value hvalue
    rw [Function.iterate_fixed hfixed, Function.iterate_fixed hfixed]

end Fields

/-! ## Registers -/

/-- How amendments read, change and write the contents `β` of a register, a record of an owner. -/
structure Cell (β : Type u) (δ : Type v) (υ : Type w) (κ : Type x) (ν : Type y) (ι : Type z) where
  decode : β → Option δ
  encode : δ → β
  merge : δ → υ → δ
  owner : δ → ι
  field : δ → κ → Option ν
  change : υ → κ → Option ν
  reread : κ → ν → Option ν
  ext : ∀ {d d'}, owner d = owner d' → (∀ k, field d k = field d' k) → d = d'
  owner_merge : ∀ d u, owner (merge d u) = owner d
  field_merge : ∀ d u k, field (merge d u) k = (change u k).or (field d k)
  decode_encode : ∀ {d}, (∀ k value, field d k = some value → reread k value ≠ none) →
    ∃ d', decode (encode d) = some d' ∧ owner d' = owner d ∧
      ∀ k, field d' k = readBack reread k (field d k)
  decode_encode_none : ∀ {d k value}, field d k = some value → reread k value = none →
    decode (encode d) = none
  /-- Two values that were read are not written alike. -/
  encode_inj : ∀ {d d' k value value'}, encode d = encode d' → field d k = some value →
    field d' k = some value' → (∃ b e, decode b = some e ∧ field e k = some value) →
    (∃ b e, decode b = some e ∧ field e k = some value') → value = value'

inductive RegisterOp (β : Type u) (υ : Type w) where
  | keep
  | set (value : Option β)
  | amend (change : υ)

variable {β : Type u} {δ : Type v} {υ : Type w} {κ : Type x} {ν : Type y} {ι : Type z}
  (cell : Cell β δ υ κ ν ι)

def Cell.amendValue (change : υ) (b : β) : β :=
  match cell.decode b with
  | none => b
  | some d => cell.encode (cell.merge d change)

def Cell.act : RegisterOp β υ → Option β → Option β
  | .keep, v => v
  | .set value, _ => value
  | .amend change, v => v.map (cell.amendValue change)

/-- Apply a log to one register. -/
def Cell.run (ops : List (RegisterOp β υ)) (v : Option β) : Option β :=
  ops.foldl (fun v op => cell.act op v) v

@[simp] theorem Cell.run_cons (op : RegisterOp β υ) (ops : List (RegisterOp β υ))
    (v : Option β) : cell.run (op :: ops) v = cell.run ops (cell.act op v) := rfl

/-- The register after some amendments. -/
def Cell.amendAll (us : List υ) (b : β) : β := us.foldl (fun b u => cell.amendValue u b) b

/-! ## Logs that overwrite -/

-- After an overwrite, what the register held before no longer matters.
theorem Cell.run_eq_of_set_mem {ops : List (RegisterOp β υ)} {value : Option β}
    (h : .set value ∈ ops) (v v' : Option β) : cell.run ops v = cell.run ops v' := by
  induction ops generalizing v v' with
  | nil => cases h
  | cons op ops ih =>
    rcases List.mem_cons.mp h with rfl | h
    · rfl
    · exact ih h _ _

/-! ## Logs of amendments -/

/-- The changes of a log without overwrites. -/
def changes : List (RegisterOp β υ) → List υ
  | [] => []
  | .amend change :: ops => change :: changes ops
  | .keep :: ops => changes ops
  | .set _ :: ops => changes ops

theorem changes_append (ops ops' : List (RegisterOp β υ)) :
    changes (ops ++ ops') = changes ops ++ changes ops' := by
  induction ops with
  | nil => rfl
  | cons op ops ih => cases op <;> simp [changes, ih]

theorem Cell.run_none_of_no_set {ops : List (RegisterOp β υ)} (h : ∀ value, .set value ∉ ops) :
    cell.run ops none = none := by
  induction ops with
  | nil => rfl
  | cons op ops ih =>
    have htail : ∀ value, .set value ∉ ops := fun value hm => h value (List.mem_cons_of_mem _ hm)
    cases op with
    | keep => exact ih htail
    | set value => exact absurd List.mem_cons_self (h value)
    | amend change => exact ih htail

theorem Cell.run_some_of_no_set {ops : List (RegisterOp β υ)} (h : ∀ value, .set value ∉ ops)
    (b : β) : cell.run ops (some b) = some (cell.amendAll (changes ops) b) := by
  induction ops generalizing b with
  | nil => rfl
  | cons op ops ih =>
    have htail : ∀ value, .set value ∉ ops := fun value hm => h value (List.mem_cons_of_mem _ hm)
    cases op with
    | keep => exact ih htail b
    | set value => exact absurd List.mem_cons_self (h value)
    | amend change => exact ih htail _

theorem Cell.amendAll_stuck {b : β} (h : cell.decode b = none) (us : List υ) :
    cell.amendAll us b = b := by
  induction us with
  | nil => rfl
  | cons u us ih =>
    rw [amendAll, List.foldl_cons, amendValue, h]
    exact ih

theorem Cell.amendAll_cons {b : β} {d : δ} (h : cell.decode b = some d) (u : υ) (us : List υ) :
    cell.amendAll (u :: us) b = cell.amendAll us (cell.encode (cell.merge d u)) := by
  rw [amendAll, List.foldl_cons, amendValue, h]
  rfl

/-- A record no field of which is ever refused. -/
def Cell.Readable (d : δ) : Prop := ∀ k value, cell.field d k = some value →
  Lasting cell.reread k value

variable {cell}

theorem Cell.Readable.reads {d : δ} (h : cell.Readable d) :
    ∃ d', cell.decode (cell.encode d) = some d' ∧ cell.owner d' = cell.owner d ∧
      (∀ k, cell.field d' k = readBack cell.reread k (cell.field d k)) ∧ cell.Readable d' := by
  have hreads : ∀ k value, cell.field d k = some value → cell.reread k value ≠ none := by
    intro k value hfield hnone
    obtain ⟨value', hread, -⟩ := (h k value hfield).next
    rw [hnone] at hread
    cases hread
  obtain ⟨d', hdecode, howner, hfields⟩ := cell.decode_encode hreads
  refine ⟨d', hdecode, howner, hfields, ?_⟩
  intro k value hvalue
  rw [hfields, readBack] at hvalue
  obtain ⟨before, hbefore, hread⟩ := Option.bind_eq_some_iff.mp hvalue
  obtain ⟨value', hread', hlasts⟩ := (h k before hbefore).next
  rw [hread] at hread'
  obtain rfl := Option.some.inj hread'
  exact hlasts

theorem Cell.Readable.merge {d : δ} (h : cell.Readable d) {u : υ}
    (hu : Clean cell.reread cell.change u) : cell.Readable (cell.merge d u) := by
  intro k value hfield
  rw [cell.field_merge] at hfield
  rcases hchange : cell.change u k with - | changed
  · rw [hchange, Option.none_or] at hfield
    exact h k value hfield
  · rw [hchange, Option.some_or] at hfield
    exact hu k value (hchange.trans hfield)

theorem Cell.decode_merge_refused {u : υ} (hu : Refused cell.reread cell.change u) (d : δ) :
    cell.decode (cell.encode (cell.merge d u)) = none := by
  obtain ⟨k, value, hchange, hnone⟩ := hu
  refine cell.decode_encode_none ?_ hnone
  rw [cell.field_merge, hchange, Option.some_or]

theorem Cell.Readable.amendAll {w : δ} (h : cell.Readable w) {us : List υ}
    (hus : ∀ u ∈ us, Clean cell.reread cell.change u ∨ Refused cell.reread cell.change u) :
    ∃ w', cell.amendAll us (cell.encode w) = cell.encode w' ∧ cell.owner w' = cell.owner w ∧
      (∀ k, cell.field w' k = (effective cell.reread cell.change us).foldl
        (rewrite cell.reread cell.change k) (cell.field w k)) ∧
      ((∀ u ∈ us, Clean cell.reread cell.change u) → cell.Readable w') ∧
      ((∃ u ∈ us, Refused cell.reread cell.change u) → cell.decode (cell.encode w') = none) := by
  induction us generalizing w with
  | nil => exact ⟨w, rfl, rfl, fun _ => rfl, fun _ => h, by simp⟩
  | cons u us ih =>
    obtain ⟨d, hdecode, howner, hfields, hreadable⟩ := h.reads
    have hmerged : ∀ k, cell.field (cell.merge d u) k =
        rewrite cell.reread cell.change k (cell.field w k) u := by
      intro k
      rw [cell.field_merge, hfields, rewrite]
    rw [cell.amendAll_cons hdecode]
    rcases hus u List.mem_cons_self with hclean | hrefused
    · obtain ⟨w', hamend, howner', hfields', hclean', hrefused'⟩ := ih (hreadable.merge hclean)
        fun x hx => hus x (List.mem_cons_of_mem _ hx)
      refine ⟨w', hamend, ?_, ?_, ?_, ?_⟩
      · rw [howner', cell.owner_merge, howner]
      · intro k
        rw [effective, if_neg hclean.not_refused, List.foldl_cons, hfields', hmerged]
      · exact fun hall => hclean' fun x hx => hall x (List.mem_cons_of_mem _ hx)
      · rintro ⟨x, hx, hxu⟩
        rcases List.mem_cons.mp hx with rfl | hx
        · exact absurd hxu hclean.not_refused
        · exact hrefused' ⟨x, hx, hxu⟩
    · have hstuck := cell.decode_merge_refused hrefused d
      refine ⟨cell.merge d u, cell.amendAll_stuck hstuck us, ?_, ?_, ?_, fun _ => hstuck⟩
      · rw [cell.owner_merge, howner]
      · intro k
        rw [effective, if_pos hrefused, List.foldl_cons, List.foldl_nil, hmerged]
      · exact fun hall => absurd hrefused (hall u List.mem_cons_self).not_refused

-- What a field has become by many readings is a value that was read.
theorem Cell.Readable.exists_decode {b : β} {d : δ} (h : cell.Readable d)
    (hb : cell.decode b = some d) (n : ℕ) :
    ∃ b' d', cell.decode b' = some d' ∧ cell.Readable d' ∧
      ∀ k, cell.field d' k = (readBack cell.reread k)^[n] (cell.field d k) := by
  induction n with
  | zero => exact ⟨b, d, hb, h, fun _ => rfl⟩
  | succ n ih =>
    obtain ⟨b', d', -, hreadable, hfields⟩ := ih
    obtain ⟨d'', hdecode, -, hread, hreadable'⟩ := hreadable.reads
    refine ⟨cell.encode d', d'', hdecode, hreadable', ?_⟩
    intro k
    rw [hread, hfields, Function.iterate_succ_apply']

/-! ## Amendments made twice -/

section Twice

variable {b : β} {d : δ} (hb : cell.decode b = some d) (hd : cell.Readable d) {u : υ}
  (hu : Clean cell.reread cell.change u)

include hb hd hu

/-- The register after amendments the first of which is clean. -/
theorem Cell.amendAll_first {us : List υ}
    (hus : ∀ u ∈ us, Clean cell.reread cell.change u ∨ Refused cell.reread cell.change u) :
    ∃ w, cell.amendAll (u :: us) b = cell.encode w ∧ cell.owner w = cell.owner d ∧
      (∀ k, cell.field w k = (effective cell.reread cell.change us).foldl
        (rewrite cell.reread cell.change k) ((cell.change u k).or (cell.field d k))) ∧
      ((∀ u ∈ us, Clean cell.reread cell.change u) → cell.Readable w) ∧
      ((∃ u ∈ us, Refused cell.reread cell.change u) → cell.decode (cell.encode w) = none) := by
  obtain ⟨w, hamend, howner, hfields, hrest⟩ := (hd.merge hu).amendAll hus
  refine ⟨w, (cell.amendAll_cons hb u us).trans hamend, ?_, ?_, hrest⟩
  · rw [howner, cell.owner_merge]
  · intro k
    rw [hfields, cell.field_merge]

/-- The register after clean amendments and then all amendments. -/
theorem Cell.amendAll_again {us vs : List υ} (hus : ∀ u ∈ us, Clean cell.reread cell.change u)
    (hvs : ∀ u ∈ us ++ vs,
      Clean cell.reread cell.change u ∨ Refused cell.reread cell.change u) :
    ∃ w, cell.amendAll (u :: (us ++ vs)) (cell.amendAll (u :: us) b) = cell.encode w ∧
      cell.owner w = cell.owner d ∧
      ∀ k, cell.field w k = (effective cell.reread cell.change (us ++ vs)).foldl
        (rewrite cell.reread cell.change k) (rewrite cell.reread cell.change k
          (us.foldl (rewrite cell.reread cell.change k)
            ((cell.change u k).or (cell.field d k))) u) := by
  obtain ⟨w, hamend, howner, hfields, hclean, -⟩ :=
    cell.amendAll_first hb hd hu fun x hx => .inl (hus x hx)
  obtain ⟨w', hamend', howner', hfields', -⟩ := (hclean hus).amendAll
    (List.forall_mem_cons.mpr ⟨.inl hu, hvs⟩)
  refine ⟨w', ?_, howner'.trans howner, ?_⟩
  · rw [hamend, hamend']
  · intro k
    rw [hfields', effective, if_neg hu.not_refused, List.foldl_cons, hfields,
      ← List.append_nil us, effective_append_of_clean hus]
    rfl

end Twice

/-- Amendments made once more after some of them give what they give alone, exactly when the fields
they do not name settle. -/
theorem Cell.Readable.amendAll_prefix_iff {b : β} {d : δ} (hb : cell.decode b = some d)
    (hd : cell.Readable d) {us : List υ}
    (hus : ∀ u ∈ us, Clean cell.reread cell.change u ∨ Refused cell.reread cell.change u) :
    (∀ pre, pre <+: us → cell.amendAll us (cell.amendAll pre b) = cell.amendAll us b) ↔
      Settles cell.reread cell.change (cell.field d) us := by
  cases us with
  | nil =>
    refine iff_of_true (fun pre hpre => ?_) trivial
    rw [List.prefix_nil.mp hpre]
    rfl
  | cons u us =>
    obtain ⟨hfirst, hrest⟩ := List.forall_mem_cons.mp hus
    rcases hfirst with hu | hu
    · constructor
      · intro h
        refine .inr fun k hunset hothers => ?_
        obtain ⟨once, honce, -, hfields, -⟩ := cell.amendAll_first hb hd hu hrest
        have hnone : ∀ x ∈ ([] : List υ), Clean cell.reread cell.change x :=
          List.forall_mem_nil _
        obtain ⟨twice, htwice, -, hfields'⟩ := cell.amendAll_again hb hd hu hnone hrest
        have hsame : cell.encode twice = cell.encode once := by
          rw [← htwice, ← honce]
          exact h [u] ⟨us, rfl⟩
        have hone := hfields k
        have htwo := hfields' k
        rw [foldl_rewrite_of_unset hothers, hunset, Option.none_or] at hone
        rw [List.nil_append, foldl_rewrite_of_unset hothers, List.foldl_nil, rewrite, hunset,
          Option.none_or, Option.none_or, ← Function.iterate_succ_apply] at htwo
        rw [← htwo, ← hone]
        cases hvalue : cell.field d k with
        | none =>
          have hnone : ∀ n, (readBack cell.reread k)^[n] none = none :=
            fun n => Function.iterate_fixed rfl n
          rw [htwo, hone, hvalue, hnone, hnone]
        | some value =>
          have hlast := hd k value hvalue
          rw [hvalue] at hone htwo
          obtain ⟨a, ha⟩ := Option.isSome_iff_exists.mp (hlast (effective _ _ us).length)
          obtain ⟨a', ha'⟩ := Option.isSome_iff_exists.mp
            (hlast ((effective cell.reread cell.change us).length + 1))
          have hread := hd.exists_decode hb (effective cell.reread cell.change us).length
          have hread' := hd.exists_decode hb
            ((effective cell.reread cell.change us).length + 1)
          obtain ⟨c, e, hc, -, he⟩ := hread
          obtain ⟨c', e', hc', -, he'⟩ := hread'
          rw [htwo, hone, ha, ha', cell.encode_inj hsame (htwo.trans ha') (hone.trans ha)
            ⟨c', e', hc', by rw [he', hvalue, ha']⟩ ⟨c, e, hc, by rw [he, hvalue, ha]⟩]
      · intro hsettles pre hpre
        have hsettled := hsettles.resolve_left hu.not_refused
        rcases List.prefix_cons_iff.mp hpre with rfl | ⟨pre, rfl, vs, rfl⟩
        · rfl
        obtain ⟨once, honce, howner, hfields, -⟩ := cell.amendAll_first hb hd hu hrest
        by_cases hclean : ∀ x ∈ pre, Clean cell.reread cell.change x
        · obtain ⟨twice, htwice, howner', hfields'⟩ := cell.amendAll_again hb hd hu hclean hrest
          rw [htwice, honce]
          refine congrArg cell.encode (cell.ext (howner'.trans howner.symm) fun k => ?_)
          rw [hfields, hfields']
          by_cases hset : ∃ x ∈ effective cell.reread cell.change (pre ++ vs),
              cell.change x k ≠ none
          · exact foldl_rewrite_of_set hset _ _
          have hothers : ∀ x ∈ effective cell.reread cell.change (pre ++ vs),
              cell.change x k = none := fun x hx => not_not.mp fun hne => hset ⟨x, hx, hne⟩
          cases hchange : cell.change u k with
          | some value => rw [rewrite, hchange, Option.some_or, Option.some_or]
          | none =>
            -- the field is only read and written again, as often as there are changes
            have hpre' : ∀ x ∈ pre, cell.change x k = none := by
              intro x hx
              apply hothers
              rw [effective_append_of_clean hclean]
              exact List.mem_append_left _ hx
            rw [foldl_rewrite_of_unset hothers, foldl_rewrite_of_unset hothers,
              foldl_rewrite_of_unset hpre', rewrite, hchange, Option.none_or, Option.none_or,
              ← Function.iterate_succ_apply' (readBack cell.reread k),
              ← Function.iterate_add_apply]
            exact iterate_add_of_fixed (hsettled k hchange hothers) _
        · -- the record was refused during the prefix, and is as it was left then
          have hrefused : ∃ x ∈ pre, Refused cell.reread cell.change x := by
            simp only [not_forall] at hclean
            obtain ⟨x, hx, hxu⟩ := hclean
            exact ⟨x, hx, (hrest x (List.mem_append_left _ hx)).resolve_left hxu⟩
          obtain ⟨left, hleft, howner', hfields', -, hstuck⟩ := cell.amendAll_first hb hd hu
            fun x hx => hrest x (List.mem_append_left vs hx)
          rw [hleft, cell.amendAll_stuck (hstuck hrefused), honce]
          refine congrArg cell.encode (cell.ext (howner'.trans howner.symm) fun k => ?_)
          rw [hfields, hfields', effective_append_of_refused hrefused]
    · -- the first change already makes the record unreadable
      refine iff_of_true (fun pre hpre => ?_) (.inl hu)
      rcases List.prefix_cons_iff.mp hpre with rfl | ⟨pre, rfl, -⟩
      · rfl
      · have hstuck := cell.decode_merge_refused hu d
        rw [cell.amendAll_cons hb, cell.amendAll_cons hb, cell.amendAll_stuck hstuck,
          cell.amendAll_stuck hstuck, cell.amendAll_stuck hstuck]

/-! ## Prefixes -/

-- Every prefix of the changes of a log is the changes of a prefix of it.
theorem exists_prefix_changes {ops : List (RegisterOp β υ)} {us : List υ}
    (h : us <+: changes ops) : ∃ pre, pre <+: ops ∧ changes pre = us := by
  induction ops generalizing us with
  | nil => exact ⟨[], List.nil_prefix, (List.prefix_nil.mp h).symm⟩
  | cons op ops ih =>
    cases op with
    | keep =>
      obtain ⟨pre, hpre, rfl⟩ := ih h
      exact ⟨.keep :: pre, List.cons_prefix_cons.mpr ⟨rfl, hpre⟩, rfl⟩
    | set value =>
      obtain ⟨pre, hpre, rfl⟩ := ih h
      exact ⟨.set value :: pre, List.cons_prefix_cons.mpr ⟨rfl, hpre⟩, rfl⟩
    | amend change =>
      rcases List.prefix_cons_iff.mp h with rfl | ⟨us, rfl, hus⟩
      · exact ⟨[], List.nil_prefix, rfl⟩
      · obtain ⟨pre, hpre, rfl⟩ := ih hus
        exact ⟨.amend change :: pre, List.cons_prefix_cons.mpr ⟨rfl, hpre⟩, rfl⟩

variable (cell)

/-- No value that the amendments of a log leave in the register is refused after it was read, unless
it is refused at once. -/
def Cell.Steady (ops : List (RegisterOp β υ)) (v : Option β) : Prop :=
  (∀ value, .set value ∉ ops) → changes ops ≠ [] →
    ∀ b d, v = some b → cell.decode b = some d → cell.Readable d ∧
      ∀ u ∈ changes ops, Clean cell.reread cell.change u ∨ Refused cell.reread cell.change u

/-- The fields that a log without overwrites does not set have settled at its end. -/
def Cell.Settled (ops : List (RegisterOp β υ)) (v : Option β) : Prop :=
  (∀ value, .set value ∉ ops) → ∀ b d, v = some b → cell.decode b = some d →
    Settles cell.reread cell.change (cell.field d) (changes ops)

variable {cell}

/-- Replaying a log over a register to which a prefix of it has already been applied. -/
theorem Cell.run_prefix_iff {ops : List (RegisterOp β υ)} {v : Option β}
    (h : cell.Steady ops v) :
    (∀ pre, pre <+: ops → cell.run ops (cell.run pre v) = cell.run ops v) ↔
      cell.Settled ops v := by
  by_cases hset : ∃ value, .set value ∈ ops
  · obtain ⟨value, hvalue⟩ := hset
    exact iff_of_true (fun pre _ => cell.run_eq_of_set_mem hvalue _ _)
      fun hno => absurd hvalue (hno value)
  have hall : ∀ value, .set value ∉ ops := fun value hm => hset ⟨value, hm⟩
  have hpre : ∀ {pre}, pre <+: ops → ∀ value, .set value ∉ pre :=
    fun hp value hm => hall value (hp.subset hm)
  cases v with
  | none =>
    refine iff_of_true (fun pre hp => ?_) fun _ b d hb => by cases hb
    rw [cell.run_none_of_no_set (hpre hp)]
  | some b =>
    have hruns : (∀ pre, pre <+: ops →
        cell.run ops (cell.run pre (some b)) = cell.run ops (some b)) ↔
        ∀ us, us <+: changes ops →
          cell.amendAll (changes ops) (cell.amendAll us b) = cell.amendAll (changes ops) b := by
      constructor
      · intro hrun us hus
        obtain ⟨pre, hp, rfl⟩ := exists_prefix_changes hus
        have hsame := hrun pre hp
        rw [cell.run_some_of_no_set (hpre hp), cell.run_some_of_no_set hall,
          cell.run_some_of_no_set hall] at hsame
        exact Option.some.inj hsame
      · rintro hamend pre ⟨post, rfl⟩
        rw [cell.run_some_of_no_set (hpre ⟨post, rfl⟩), cell.run_some_of_no_set hall,
          cell.run_some_of_no_set hall, hamend _ ⟨changes post, (changes_append pre post).symm⟩]
    rw [hruns]
    cases hb : cell.decode b with
    | none =>
      refine iff_of_true (fun us _ => ?_) fun _ b' d hv hd => ?_
      · rw [cell.amendAll_stuck hb]
      · rw [← Option.some.inj hv, hb] at hd
        cases hd
    | some d =>
      have hsettled : cell.Settled ops (some b) ↔
          Settles cell.reread cell.change (cell.field d) (changes ops) := by
        constructor
        · exact fun hs => hs hall b d rfl hb
        · intro hs _ b' d' hv hd
          rw [← Option.some.inj hv, hb] at hd
          rw [← Option.some.inj hd]
          exact hs
      rw [hsettled]
      by_cases hnil : changes ops = []
      · rw [hnil]
        refine iff_of_true (fun us hus => ?_) trivial
        rw [List.prefix_nil.mp hus]
        rfl
      · obtain ⟨hd, hus⟩ := h hall hnil b d rfl hb
        exact hd.amendAll_prefix_iff hb hus

/-! ## Families of registers -/

section Family

variable {σ κ' ω : Type*} (get : σ → κ' → Option β) (step : σ → ω → σ)
  (register : ω → κ' → RegisterOp β υ)

-- When each operation acts on each register of a state on its own, so does a log.
theorem Cell.get_foldl (hstep : ∀ s op k, get (step s op) k = cell.act (register op k) (get s k))
    (ops : List ω) (s : σ) (k : κ') :
    get (ops.foldl step s) k = cell.run (ops.map (register · k)) (get s k) := by
  induction ops generalizing s with
  | nil => rfl
  | cons op ops ih =>
    rw [List.foldl_cons, ih, List.map_cons, Cell.run_cons, hstep]

/-- **When replay is idempotent.** A log replayed after any prefix of it gives the state that the
log alone gives exactly when what it does not set settles in every register. -/
theorem Cell.foldl_prefix_iff (hext : ∀ s t, (∀ k, get s k = get t k) → s = t)
    (hstep : ∀ s op k, get (step s op) k = cell.act (register op k) (get s k))
    {log : List ω} {s : σ} (h : ∀ k, cell.Steady (log.map (register · k)) (get s k)) :
    (∀ ops, ops <+: log → log.foldl step (ops.foldl step s) = log.foldl step s) ↔
      ∀ k, cell.Settled (log.map (register · k)) (get s k) := by
  constructor
  · intro hreplay k
    rw [← cell.run_prefix_iff (h k)]
    intro pre hpre
    obtain ⟨ops, hops, rfl⟩ := List.prefix_map_iff.mp hpre
    rw [← cell.get_foldl get step register hstep, ← cell.get_foldl get step register hstep,
      ← cell.get_foldl get step register hstep, hreplay ops hops]
  · intro hsettled ops hops
    apply hext
    intro k
    rw [cell.get_foldl get step register hstep, cell.get_foldl get step register hstep,
      cell.get_foldl get step register hstep]
    exact (cell.run_prefix_iff (h k)).mpr (hsettled k) _ (hops.map _)

end Family

end RegisterLog
