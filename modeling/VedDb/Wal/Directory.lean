import VedDb.Lib.StableSort
import VedDb.Wal.Reader

/-!
# The log directory

The files of a log and the order in which they are replayed.  A file is named after its number,
`wal-{:010}.log`, and `scan_wal_files` sorts by name: numeric order as long as the numbers have ten
digits.
-/

namespace VedDb

open LittleEndian (Bytes)

structure WalFile where
  number : Nat
  content : Bytes
  deriving DecidableEq

/-- The log files of a directory, in the order `read_dir` lists them. -/
abbrev WalDir := List WalFile

/-- The `w` low-order decimal digits of `n`, most significant first. -/
def decChars : Nat → Nat → List Char
  | 0, _ => []
  | w + 1, n => decChars w (n / 10) ++ [Char.ofNat (48 + n % 10)]

/-- `WalWriter::wal_file_path` without the directory.  `{:010}` prints ten digits, or as many as
the number needs. -/
def walFileName (fileNumber : Nat) : String :=
  let digits := if fileNumber < 10 ^ 10 then decChars 10 fileNumber else Nat.toDigits 10 fileNumber
  String.ofList ("wal-".toList ++ digits ++ ".log".toList)

/-- `scan_wal_files`: the files sorted by name. -/
def scanWalFiles (dir : WalDir) : List WalFile :=
  dir.mergeSort (fun a b => decide (walFileName a.number ≤ walFileName b.number))

theorem scanWalFiles_perm (dir : WalDir) : (scanWalFiles dir).Perm dir :=
  List.mergeSort_perm _ _

/-! ## Name order and number order -/

@[simp] theorem decChars_length (w n : Nat) : (decChars w n).length = w := by
  induction w generalizing n with
  | zero => rfl
  | succ w ih => simp [decChars, ih]

theorem append_lt_append {as bs : List Char} (hlen : as.length = bs.length) (hlt : as < bs)
    (cs ds : List Char) : as ++ cs < bs ++ ds := by
  induction as generalizing bs with
  | nil =>
    rw [List.length_nil, eq_comm, List.length_eq_zero_iff] at hlen
    rw [hlen] at hlt
    exact absurd hlt (List.lt_irrefl _)
  | cons a as ih =>
    cases bs with
    | nil => simp at hlen
    | cons b bs =>
      rw [List.cons_append, List.cons_append, List.cons_lt_cons_iff]
      rcases List.cons_lt_cons_iff.mp hlt with h | ⟨h, htail⟩
      · exact .inl h
      · exact .inr ⟨h, ih (by simpa using hlen) htail⟩

theorem digit_lt : ∀ a < 10, ∀ b < 10, a < b → Char.ofNat (48 + a) < Char.ofNat (48 + b) := by
  decide

-- Digits of one width are ordered like the numbers they print.
theorem decChars_lt {w m n : Nat} (hmn : m < n) (hn : n < 10 ^ w) :
    decChars w m < decChars w n := by
  induction w generalizing m n with
  | zero => omega
  | succ w ih =>
    rw [decChars, decChars]
    have hdiv : n / 10 < 10 ^ w := by
      rw [Nat.div_lt_iff_lt_mul (by decide)]
      simpa [Nat.pow_succ] using hn
    rcases Nat.lt_or_ge (m / 10) (n / 10) with hlt | hge
    · exact append_lt_append (by simp) (ih hlt hdiv) _ _
    · have heq : m / 10 = n / 10 := by omega
      rw [heq]
      apply List.append_left_lt
      rw [List.cons_lt_cons_iff]
      exact .inl (digit_lt _ (Nat.mod_lt _ (by decide)) _ (Nat.mod_lt _ (by decide)) (by omega))

theorem walFileName_lt {m n : Nat} (hmn : m < n) (hn : n < 10 ^ 10) :
    walFileName m < walFileName n := by
  unfold walFileName
  simp only [if_pos (hmn.trans hn), if_pos hn, String.lt_iff, String.toList_ofList,
    List.append_assoc]
  exact List.append_left_lt (append_lt_append (by simp) (decChars_lt hmn hn) _ _)

theorem scanWalFiles_sorted (dir : WalDir) : (scanWalFiles dir).Pairwise
    (fun a b => walFileName a.number ≤ walFileName b.number) := by
  apply pairwise_mergeSort_decide
  · intro a b c hab hbc
    exact String.le_trans hab hbc
  · intro a b
    exact String.le_total _ _

-- As long as ten digits suffice, replay goes through the files in the order of their numbers.
theorem scanWalFiles_pairwise {dir : WalDir} (hnodup : (dir.map WalFile.number).Nodup)
    (hten : ∀ number ∈ dir.map WalFile.number, number < 10 ^ 10) :
    (scanWalFiles dir).Pairwise (fun a b => a.number < b.number) := by
  have hperm := scanWalFiles_perm dir
  have hsorted := scanWalFiles_sorted dir
  have hdistinct : (scanWalFiles dir).Pairwise (fun a b => a.number ≠ b.number) :=
    List.pairwise_map.mp ((hperm.map WalFile.number).nodup_iff.mpr hnodup)
  refine (hsorted.and hdistinct).imp_of_mem ?_
  intro a b ha hb ⟨hle, hne⟩
  rcases Nat.lt_or_ge a.number b.number with hlt | hge
  · exact hlt
  · have hten := hten _ (List.mem_map_of_mem (hperm.mem_iff.mp ha))
    have hname := walFileName_lt (Nat.lt_of_le_of_ne hge (Ne.symm hne)) hten
    exact absurd hname hle

/-! ## What the files hold -/

def WalFile.entries (codec : WalCodec) (file : WalFile) : List WalEntry :=
  (WalReader.fileResults codec file.content).filterMap Except.toOption

theorem WalFile.entries_of_holds {codec : WalCodec} {file : WalFile} {entries : List WalEntry}
    (h : codec.Holds file.content entries) : file.entries codec = entries := by
  rw [WalFile.entries, h.fileResults, List.filterMap_map]
  exact List.filterMap_some

/-- The directory holds whole frames only. -/
def WalDir.Framed (codec : WalCodec) (dir : WalDir) : Prop :=
  ∀ file ∈ dir, codec.Holds file.content (file.entries codec)

/-- The entries of all files, in directory order. -/
def WalDir.entries (codec : WalCodec) (dir : WalDir) : List WalEntry :=
  dir.flatMap (WalFile.entries codec)

/-- What the loops of `replay_all_wals` read, file after file. -/
def WalDir.results (codec : WalCodec) (dir : WalDir) : List (Except WalError WalEntry) :=
  (scanWalFiles dir).flatMap fun file => WalReader.fileResults codec file.content

theorem WalDir.results_of_framed {codec : WalCodec} {dir : WalDir} (h : dir.Framed codec) :
    dir.results codec = (WalDir.entries codec (scanWalFiles dir)).map .ok := by
  have hfiles : ∀ file ∈ scanWalFiles dir,
      WalReader.fileResults codec file.content = (file.entries codec).map .ok := fun file hfile =>
    (h file ((scanWalFiles_perm dir).mem_iff.mp hfile)).fileResults
  unfold WalDir.results WalDir.entries
  rw [List.map_flatMap]
  exact List.flatMap_congr hfiles

/-! ## Writing into the directory -/

namespace WalDir

/-- `OpenOptions::new().create(true).append(true).open(..)`. -/
def create (dir : WalDir) (number : Nat) : WalDir :=
  if number ∈ dir.map WalFile.number then dir else dir ++ [{ number := number, content := [] }]

def modify (dir : WalDir) (number : Nat) (f : Bytes → Bytes) : WalDir :=
  dir.map fun file =>
    if file.number = number then { file with content := f file.content } else file

/-- `file.metadata()?.len()`. -/
def fileSize (dir : WalDir) (number : Nat) : Nat :=
  match dir.find? (fun file => file.number = number) with
  | some file => file.content.length
  | none => 0

@[simp] theorem modify_numbers (dir : WalDir) (number : Nat) (f : Bytes → Bytes) :
    (dir.modify number f).map WalFile.number = dir.map WalFile.number := by
  unfold modify
  rw [List.map_map]
  apply List.map_congr_left
  intro file _
  simp only [Function.comp_apply]
  split <;> rfl

theorem mem_create_numbers {dir : WalDir} {number n : Nat} :
    n ∈ (dir.create number).map WalFile.number ↔ n ∈ dir.map WalFile.number ∨ n = number := by
  unfold create
  split
  · next h =>
      constructor
      · exact Or.inl
      · rintro (hn | rfl)
        · exact hn
        · exact h
  · simp

theorem create_numbers_nodup {dir : WalDir} (h : (dir.map WalFile.number).Nodup) (number : Nat) :
    ((dir.create number).map WalFile.number).Nodup := by
  unfold create
  split
  · exact h
  · next hnew =>
      rw [List.map_append]
      refine List.nodup_append.mpr ⟨h, List.pairwise_singleton _ _, ?_⟩
      rintro a ha b hb rfl
      obtain rfl : a = number := List.mem_singleton.mp hb
      exact hnew ha

-- A change of one file touches exactly one file.
theorem modify_eq {dir : WalDir} {number : Nat} (hnodup : (dir.map WalFile.number).Nodup)
    (hmem : number ∈ dir.map WalFile.number) (f : Bytes → Bytes) :
    ∃ before file behind, dir = before ++ file :: behind ∧ file.number = number ∧
      dir.modify number f = before ++ { file with content := f file.content } :: behind := by
  obtain ⟨file, hfile, hnumber⟩ := List.mem_map.mp hmem
  obtain ⟨before, behind, rfl⟩ := List.append_of_mem hfile
  refine ⟨before, file, behind, rfl, hnumber, ?_⟩
  rw [List.map_append, List.map_cons, List.nodup_append, List.nodup_cons] at hnodup
  obtain ⟨-, ⟨hbehind, -⟩, hbefore⟩ := hnodup
  have hother (part : WalDir) (h : ∀ other ∈ part, other.number ≠ number) :
      part.modify number f = part := by
    conv_rhs => rw [← List.map_id part]
    apply List.map_congr_left
    intro other hother
    rw [if_neg (h other hother), id]
  have h₁ := hother before fun other ho heq =>
    hbefore _ (List.mem_map_of_mem ho) file.number List.mem_cons_self (heq.trans hnumber.symm)
  have h₂ := hother behind fun other ho heq =>
    hbehind (heq.trans hnumber.symm ▸ List.mem_map_of_mem ho)
  unfold modify at h₁ h₂ ⊢
  rw [List.map_append, List.map_cons, h₁, h₂, if_pos hnumber]

end WalDir

namespace WalDir.Framed

variable {codec : WalCodec} {dir : WalDir}

theorem create (h : dir.Framed codec) (number : Nat) :
    (dir.create number).Framed codec ∧ (dir.create number).entries codec = dir.entries codec := by
  have hempty : WalFile.entries codec ⟨number, []⟩ = [] := rfl
  unfold WalDir.create
  split
  · exact ⟨h, rfl⟩
  · refine ⟨?_, by simp [WalDir.entries, hempty]⟩
    intro file hfile
    rcases List.mem_append.mp hfile with hfile | hfile
    · exact h file hfile
    · rw [List.mem_singleton.mp hfile]
      exact .nil

-- Writing a frame at the end of a file adds its entry to that file.
theorem write {entry : WalEntry} {bytes : Bytes} (h : dir.Framed codec)
    (hbytes : codec.Frames entry bytes) {number : Nat}
    (hnodup : (dir.map WalFile.number).Nodup) (hmem : number ∈ dir.map WalFile.number) :
    ∃ before file behind, dir = before ++ file :: behind ∧ file.number = number ∧
      dir.modify number (· ++ bytes) =
        before ++ { file with content := file.content ++ bytes } :: behind ∧
      (dir.modify number (· ++ bytes)).Framed codec ∧
      WalFile.entries codec { file with content := file.content ++ bytes } =
        file.entries codec ++ [entry] := by
  obtain ⟨before, file, behind, rfl, hnumber, heq⟩ := WalDir.modify_eq hnodup hmem (· ++ bytes)
  have hholds := (h file (by simp)).append hbytes
  have hentries : WalFile.entries codec { file with content := file.content ++ bytes } = _ :=
    WalFile.entries_of_holds hholds
  refine ⟨before, file, behind, rfl, hnumber, heq, ?_, hentries⟩
  rw [heq]
  intro other hother
  rcases List.mem_append.mp hother with hother | hother
  · exact h other (List.mem_append_left _ hother)
  · rcases List.mem_cons.mp hother with rfl | hother
    · rw [hentries]
      exact hholds
    · exact h other (List.mem_append_right _ (List.mem_cons_of_mem _ hother))

end WalDir.Framed

end VedDb
