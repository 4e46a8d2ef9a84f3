import Mathlib.Data.Fintype.Defs
import VedDb.Wal.Replay
import VedDb.Wal.Writer

/-!
# Concurrent appenders

Any number of threads run `WalWriter::append` on one writer.  A thread takes its sequence number
first, builds its frame, looks at the file size, perhaps rotates, and only then takes the file lock
to write.  Between any two of these steps the others may move, so frames can reach the file in
another order than their numbers, and two rotations can install their files the wrong way round.

Replay meets the entries in number order in every run in which each frame is written by the holder
of the smallest number still to be written, each rotation installs a newer file than the one in
use, and the file numbers keep to ten digits.
-/

namespace VedDb

open LittleEndian (Bytes)

/-- Where a thread stands in `append`, with its local variables: the entry and its serialised
frame, and in `rotate_file` the number of the new file. -/
inductive AppendPc where
  | idle
  /-- The number is taken and the frame built. -/
  | numbered (entry : WalEntry) (bytes : Bytes)
  /-- `should_rotate` answered yes; waiting for the lock to flush. -/
  | rotating (entry : WalEntry) (bytes : Bytes)
  /-- Holding the lock in `flush`. -/
  | flushing (entry : WalEntry) (bytes : Bytes)
  | flushed (entry : WalEntry) (bytes : Bytes)
  /-- The new file's number is taken. -/
  | renumbered (entry : WalEntry) (bytes : Bytes) (newFileNumber : Nat)
  /-- The new file is open; waiting for the lock to install it. -/
  | opened (entry : WalEntry) (bytes : Bytes) (newFileNumber : Nat)
  /-- Holding the lock to replace the file. -/
  | installing (entry : WalEntry) (bytes : Bytes) (newFileNumber : Nat)
  | installed (entry : WalEntry) (bytes : Bytes)
  /-- Waiting for the lock to write. -/
  | ready (entry : WalEntry) (bytes : Bytes)
  /-- Holding the lock to write. -/
  | writing (entry : WalEntry) (bytes : Bytes)
  /-- The frame is written, the file size not yet updated. -/
  | written (size : Nat)

namespace AppendPc

/-- The entry whose number is taken and whose frame is not yet written. -/
def held : AppendPc → Option (WalEntry × Bytes)
  | .idle => none
  | .numbered entry bytes => some (entry, bytes)
  | .rotating entry bytes => some (entry, bytes)
  | .flushing entry bytes => some (entry, bytes)
  | .flushed entry bytes => some (entry, bytes)
  | .renumbered entry bytes _ => some (entry, bytes)
  | .opened entry bytes _ => some (entry, bytes)
  | .installing entry bytes _ => some (entry, bytes)
  | .installed entry bytes => some (entry, bytes)
  | .ready entry bytes => some (entry, bytes)
  | .writing entry bytes => some (entry, bytes)
  | .written _ => none

/-- The number a rotation has taken for a file it has not yet opened. -/
def renumbering : AppendPc → Option Nat
  | .renumbered _ _ newFileNumber => some newFileNumber
  | _ => none

/-- The file a rotation has opened and not yet installed. -/
def opening : AppendPc → Option Nat
  | .opened _ _ newFileNumber => some newFileNumber
  | .installing _ _ newFileNumber => some newFileNumber
  | _ => none

end AppendPc

/-- One writer shared by the threads `τ`: the file lock and where each thread stands. -/
structure SharedLog (τ : Type*) where
  writer : WalWriter
  lock : Option τ
  pc : τ → AppendPc

/-- What the scheduler lets a thread do: call `append`, or take the next step of the call. -/
inductive Move (τ : Type*) where
  | call (thread : τ) (now : DateTime) (operation : Operation)
  | advance (thread : τ)

namespace SharedLog

variable {τ : Type*} [DecidableEq τ] (codec : WalCodec)

def start (config : WalConfig) : SharedLog τ :=
  { writer := WalWriter.new codec config [], lock := none, pc := fun _ => .idle }

def goto (s : SharedLog τ) (t : τ) (pc : AppendPc) : SharedLog τ :=
  { s with pc := Function.update s.pc t pc }

/-- Take the lock, or stay put while another thread holds it. -/
def acquire (s : SharedLog τ) (t : τ) (pc : AppendPc) : SharedLog τ :=
  if s.lock = none then { s with lock := some t }.goto t pc else s

/-- `fetch_add` on the sequence and the thread-local work behind it; an entry that does not
serialise ends the call. -/
def call (s : SharedLog τ) (t : τ) (now : DateTime) (operation : Operation) : SharedLog τ :=
  let sequence := s.writer.currentSequence
  let s := { s with writer := s.writer.fetchSequence }
  match WalWriter.sealEntry codec sequence now operation with
  | .error _ => s
  | .ok entry =>
    match codec.serializeEntry entry with
    | .error _ => s
    | .ok bytes => s.goto t (.numbered entry bytes)

/-- The next step of a thread inside `append`. -/
def advance (s : SharedLog τ) (t : τ) : SharedLog τ :=
  match s.pc t with
  | .idle => s
  | .numbered entry bytes =>
    if s.writer.shouldRotate bytes.length then s.goto t (.rotating entry bytes)
    else s.goto t (.ready entry bytes)
  | .rotating entry bytes => s.acquire t (.flushing entry bytes)
  | .flushing entry bytes =>
    { s with writer := s.writer.flush, lock := none }.goto t (.flushed entry bytes)
  | .flushed entry bytes =>
    let writer := s.writer.fetchFileNumber
    { s with writer := writer }.goto t (.renumbered entry bytes writer.fileNumber)
  | .renumbered entry bytes n =>
    { s with writer := s.writer.openFile n }.goto t (.opened entry bytes n)
  | .opened entry bytes n => s.acquire t (.installing entry bytes n)
  | .installing entry bytes n =>
    { s with writer := s.writer.installFile n, lock := none }.goto t (.installed entry bytes)
  | .installed entry bytes =>
    { s with writer := s.writer.resetFileSize }.goto t (.ready entry bytes)
  | .ready entry bytes => s.acquire t (.writing entry bytes)
  | .writing _ bytes =>
    { s with writer := s.writer.writeFrame bytes, lock := none }.goto t (.written bytes.length)
  | .written size => { s with writer := s.writer.growFileSize size }.goto t .idle

def step (s : SharedLog τ) : Move τ → SharedLog τ
  | .call t now operation =>
    match s.pc t with
    | .idle => s.call codec t now operation
    | _ => s
  | .advance t => s.advance t

def run (s : SharedLog τ) (moves : List (Move τ)) : SharedLog τ := moves.foldl (step codec) s

/-! ## Orderly schedules -/

/-- What has to hold before a thread takes its next step for the log to stay in number order. -/
def OrderlyAt (s : SharedLog τ) (t : τ) : AppendPc → Prop
  | .flushed _ _ => s.writer.fileNumber + 1 < 10 ^ 10
  | .installing _ _ n => s.writer.file < n
  | .writing entry _ => ∀ u, u ≠ t → ∀ other ∈ (s.pc u).held, entry.sequence < other.1.sequence
  | _ => True

def Orderly (s : SharedLog τ) : Move τ → Prop
  | .call _ now operation =>
    WalWriter.Loggable codec now operation ∧ s.writer.currentSequence + 1 < 2 ^ 64
  | .advance t => s.OrderlyAt t (s.pc t)

instance [Fintype τ] (s : SharedLog τ) (t : τ) (pc : AppendPc) : Decidable (s.OrderlyAt t pc) :=
  match pc with
  | .flushed _ _ => inferInstanceAs (Decidable (s.writer.fileNumber + 1 < 10 ^ 10))
  | .installing _ _ n => inferInstanceAs (Decidable (s.writer.file < n))
  | .writing entry _ => inferInstanceAs (Decidable
      (∀ u, u ≠ t → ∀ other ∈ (s.pc u).held, entry.sequence < other.1.sequence))
  | .idle | .numbered _ _ | .rotating _ _ | .flushing _ _ | .renumbered _ _ _ | .opened _ _ _
  | .installed _ _ | .ready _ _ | .written _ => inferInstanceAs (Decidable True)

def OrderlyRun : SharedLog τ → List (Move τ) → Prop
  | _, [] => True
  | s, move :: moves => Orderly codec s move ∧ OrderlyRun (step codec s move) moves

def InOrder (s : SharedLog τ) : Prop :=
  ∃ read : List WalEntry, s.writer.dir.results codec = read.map .ok ∧
    read.Pairwise (fun a b => a.sequence < b.sequence) ∧
    ∀ json now layer fromSequence, ∃ stats,
      replayAllWals json codec now s.writer.dir layer fromSequence =
        (.ok stats, applyAll json now (replayedOperations fromSequence read) layer)

/-! ## The invariant -/

/-- The files are ordered like the entries in them, and none beyond the open file holds any. -/
structure WriterInv (w : WalWriter) : Prop where
  sound : w.Sound codec
  numbers_lt : ∀ number ∈ w.dir.map WalFile.number, number < 10 ^ 10
  fileNumber_lt : w.fileNumber < 10 ^ 10
  entries_lt : ∀ entry ∈ w.dir.entries codec, entry.sequence < w.currentSequence
  beyond_empty : ∀ file ∈ w.dir, w.file < file.number → file.entries codec = []
  within : ∀ file ∈ w.dir, (file.entries codec).Pairwise (fun a b => a.sequence < b.sequence)
  across : ∀ f ∈ w.dir, ∀ g ∈ w.dir, f.number < g.number →
    ∀ a ∈ f.entries codec, ∀ b ∈ g.entries codec, a.sequence < b.sequence

/-- A thread holds the frame of an entry above everything logged, and the file it is about to
install is there. -/
structure ThreadInv (w : WalWriter) (pc : AppendPc) : Prop where
  framed : ∀ x ∈ pc.held, codec.Frames x.1 x.2
  held_lt : ∀ x ∈ pc.held, x.1.sequence < w.currentSequence
  entries_lt : ∀ x ∈ pc.held, ∀ entry ∈ w.dir.entries codec, entry.sequence < x.1.sequence
  renumbering_lt : ∀ n ∈ pc.renumbering, n < 10 ^ 10
  opening_mem : ∀ n ∈ pc.opening, n ∈ w.dir.map WalFile.number

structure Inv (s : SharedLog τ) : Prop where
  writer : WriterInv codec s.writer
  threads : ∀ t, ThreadInv codec s.writer (s.pc t)

variable {codec} {s : SharedLog τ} {w w' : WalWriter} {pc pc' : AppendPc}

-- What the other threads know survives a step that logs nothing and removes no file.
theorem ThreadInv.mono (h : ThreadInv codec w pc)
    (hentries : w'.dir.entries codec = w.dir.entries codec)
    (hnumbers : ∀ n ∈ w.dir.map WalFile.number, n ∈ w'.dir.map WalFile.number)
    (hseq : w.currentSequence ≤ w'.currentSequence) : ThreadInv codec w' pc where
  framed := h.framed
  held_lt := fun x hx => (h.held_lt x hx).trans_le hseq
  entries_lt := by
    rw [hentries]
    exact h.entries_lt
  renumbering_lt := h.renumbering_lt
  opening_mem := fun n hn => hnumbers n (h.opening_mem n hn)

-- A step inside `append` that keeps the frame and takes up no file.
theorem ThreadInv.move (h : ThreadInv codec w pc) (hheld : pc'.held = pc.held)
    (hrenumbering : pc'.renumbering = none) (hopening : pc'.opening = none) :
    ThreadInv codec w pc' where
  framed := by
    rw [hheld]
    exact h.framed
  held_lt := by
    rw [hheld]
    exact h.held_lt
  entries_lt := by
    rw [hheld]
    exact h.entries_lt
  renumbering_lt := by simp [hrenumbering]
  opening_mem := by simp [hopening]

-- A thread outside `append` holds nothing.
theorem ThreadInv.of_held_none (hheld : pc.held = none) (hrenumbering : pc.renumbering = none)
    (hopening : pc.opening = none) : ThreadInv codec w pc := by
  constructor <;> simp [hheld, hrenumbering, hopening]

theorem Inv.goto (h : Inv codec s) {t : τ} (hpc : ThreadInv codec s.writer pc) :
    Inv codec (s.goto t pc) := by
  refine ⟨h.writer, fun u => ?_⟩
  simp only [SharedLog.goto, Function.update_apply]
  split
  · exact hpc
  · exact h.threads u

-- A step that only moves a thread on, its frame still in hand.
theorem Inv.move (h : Inv codec s) {t : τ} (hpc : s.pc t = pc) (hheld : pc'.held = pc.held)
    (hrenumbering : pc'.renumbering = none) (hopening : pc'.opening = none) :
    Inv codec (s.goto t pc') :=
  h.goto ((hpc ▸ h.threads t).move hheld hrenumbering hopening)

omit [DecidableEq τ] in
-- The lock itself is not part of the invariant.
theorem Inv.with_writer {lock : Option τ} (h : Inv codec s) (hwriter : WriterInv codec w')
    (hentries : w'.dir.entries codec = s.writer.dir.entries codec)
    (hnumbers : ∀ n ∈ s.writer.dir.map WalFile.number, n ∈ w'.dir.map WalFile.number)
    (hseq : s.writer.currentSequence ≤ w'.currentSequence) :
    Inv codec { s with writer := w', lock := lock } :=
  ⟨hwriter, fun t => (h.threads t).mono hentries hnumbers hseq⟩

theorem Inv.acquire (h : Inv codec s) {t : τ} (hpc : ThreadInv codec s.writer pc) :
    Inv codec (s.acquire t pc) := by
  unfold SharedLog.acquire
  split
  · exact (Inv.goto (s := { s with lock := some t }) ⟨h.writer, h.threads⟩ hpc)
  · exact h

omit [DecidableEq τ] in
theorem inv_start (config : WalConfig) : Inv codec (start codec config : SharedLog τ) := by
  have hone : ∀ file ∈ (WalWriter.new codec config []).dir, file = ⟨0, []⟩ := fun file hfile =>
    List.mem_singleton.mp hfile
  have hempty : ∀ file ∈ (WalWriter.new codec config []).dir, file.entries codec = [] := by
    intro file hfile
    rw [hone file hfile]
    rfl
  refine ⟨⟨WalWriter.sound_new_nil config, ?_, ?_, ?_, ?_, ?_, ?_⟩,
    fun t => .of_held_none rfl rfl rfl⟩
  · intro number hnumber
    rw [List.mem_singleton.mp hnumber]
    decide
  · change 0 < 10 ^ 10
    decide
  · intro entry hentry
    obtain ⟨file, hfile, hmem⟩ := List.mem_flatMap.mp hentry
    rw [hempty file hfile] at hmem
    cases hmem
  · exact fun file hfile _ => hempty file hfile
  · intro file hfile
    rw [hempty file hfile]
    exact .nil
  · intro f hf g hg _ a ha
    rw [hempty f hf] at ha
    cases ha

/-! ## One step -/

-- Steps that touch neither the files nor the numbers of files.
theorem WriterInv.of_dir_eq (h : WriterInv codec w) (hdir : w'.dir = w.dir)
    (hfile : w'.file = w.file) (hnumber : w'.fileNumber < 10 ^ 10)
    (hseq : w.currentSequence ≤ w'.currentSequence) : WriterInv codec w' where
  sound := h.sound.of_dir_eq hdir hfile
  numbers_lt := hdir ▸ h.numbers_lt
  fileNumber_lt := hnumber
  entries_lt := fun entry hentry => (h.entries_lt entry (hdir ▸ hentry)).trans_le hseq
  beyond_empty := hdir ▸ hfile ▸ h.beyond_empty
  within := hdir ▸ h.within
  across := hdir ▸ h.across

theorem WriterInv.openFile (h : WriterInv codec w) {n : Nat} (hn : n < 10 ^ 10) :
    WriterInv codec (w.openFile n) := by
  obtain ⟨hframed, hentries⟩ := h.sound.framed.create n
  -- a file that is there already is opened as it is, any other one is empty
  have hmem : ∀ file ∈ w.dir.create n, file ∈ w.dir ∨ file.entries codec = [] := by
    intro file hfile
    unfold WalDir.create at hfile
    split at hfile
    · exact .inl hfile
    · rcases List.mem_append.mp hfile with hfile | hfile
      · exact .inl hfile
      · rw [List.mem_singleton.mp hfile]
        exact .inr rfl
  refine ⟨⟨hframed, WalDir.create_numbers_nodup h.sound.numbers_nodup n, ?_⟩, ?_,
    h.fileNumber_lt, ?_, ?_, ?_, ?_⟩
  · exact WalDir.mem_create_numbers.mpr (.inl h.sound.file_mem)
  · intro number hnumber
    rcases WalDir.mem_create_numbers.mp hnumber with hnumber | rfl
    · exact h.numbers_lt number hnumber
    · exact hn
  · intro entry hentry
    exact h.entries_lt entry (hentries ▸ hentry)
  · intro file hfile hlt
    rcases hmem file hfile with hfile | hempty
    · exact h.beyond_empty file hfile hlt
    · exact hempty
  · intro file hfile
    rcases hmem file hfile with hfile | hempty
    · exact h.within file hfile
    · rw [hempty]
      exact .nil
  · intro f hf g hg hlt a ha b hb
    rcases hmem f hf with hf | hempty
    · rcases hmem g hg with hg | hempty
      · exact h.across f hf g hg hlt a ha b hb
      · rw [hempty] at hb
        cases hb
    · rw [hempty] at ha
      cases ha

theorem WriterInv.installFile (h : WriterInv codec w) {n : Nat}
    (hmem : n ∈ w.dir.map WalFile.number) (hlt : w.file < n) :
    WriterInv codec (w.installFile n) where
  sound := ⟨h.sound.framed, h.sound.numbers_nodup, hmem⟩
  numbers_lt := h.numbers_lt
  fileNumber_lt := h.fileNumber_lt
  entries_lt := h.entries_lt
  beyond_empty := fun file hfile hbeyond => h.beyond_empty file hfile (hlt.trans hbeyond)
  within := h.within
  across := h.across

-- The frame of the smallest outstanding entry goes behind everything logged so far.
-- A file afterwards is one from before, or the open one with the new entry at its end.
theorem WriterInv.mem_writeFrame (h : WriterInv codec w) {entry : WalEntry} {bytes : Bytes}
    (hbytes : codec.Frames entry bytes) {file : WalFile}
    (hfile : file ∈ (w.writeFrame bytes).dir) :
    ∃ old ∈ w.dir, file.number = old.number ∧
      (file.entries codec = old.entries codec ∨
        (old.number = w.file ∧ file.entries codec = old.entries codec ++ [entry])) := by
  obtain ⟨before, old, behind, hdir, hnumber, heq, -, hentries⟩ :=
    h.sound.framed.write hbytes h.sound.numbers_nodup h.sound.file_mem
  rw [WalWriter.writeFrame_dir, heq] at hfile
  rcases List.mem_append.mp hfile with hfile | hfile
  · exact ⟨file, hdir ▸ List.mem_append_left _ hfile, rfl, .inl rfl⟩
  rcases List.mem_cons.mp hfile with rfl | hfile
  · exact ⟨old, hdir ▸ List.mem_append_right _ List.mem_cons_self, rfl, .inr ⟨hnumber, hentries⟩⟩
  · exact ⟨file, hdir ▸ List.mem_append_right _ (List.mem_cons_of_mem _ hfile), rfl, .inl rfl⟩

theorem WriterInv.writeFrame (h : WriterInv codec w) {entry : WalEntry} {bytes : Bytes}
    (hbytes : codec.Frames entry bytes) (hseq : entry.sequence < w.currentSequence)
    (hlast : ∀ e ∈ w.dir.entries codec, e.sequence < entry.sequence) :
    WriterInv codec (w.writeFrame bytes) := by
  obtain ⟨hsound, hperm, -⟩ := h.sound.writeFrame hbytes
  have hold : ∀ old ∈ w.dir, ∀ e ∈ old.entries codec, e.sequence < entry.sequence :=
    fun old hold e he => hlast e (List.mem_flatMap.mpr ⟨old, hold, he⟩)
  refine ⟨hsound, ?_, ?_, ?_, ?_, ?_, ?_⟩
  · rw [WalWriter.writeFrame_dir, WalDir.modify_numbers]
    exact h.numbers_lt
  · rw [WalWriter.writeFrame_fileNumber]
    exact h.fileNumber_lt
  · intro e he
    rw [WalWriter.writeFrame_currentSequence]
    rcases List.mem_append.mp (hperm.mem_iff.mp he) with he | he
    · exact h.entries_lt e he
    · rw [List.mem_singleton.mp he]
      exact hseq
  · intro file hfile hbeyond
    rw [WalWriter.writeFrame_file] at hbeyond
    obtain ⟨old, hmem, hnumber, hentries | ⟨hopen, -⟩⟩ := h.mem_writeFrame hbytes hfile
    · rw [hentries]
      exact h.beyond_empty old hmem (hnumber ▸ hbeyond)
    · rw [hnumber, hopen] at hbeyond
      exact absurd hbeyond (lt_irrefl _)
  · intro file hfile
    obtain ⟨old, hmem, -, hentries | ⟨-, hentries⟩⟩ := h.mem_writeFrame hbytes hfile
    · rw [hentries]
      exact h.within old hmem
    · rw [hentries, List.pairwise_append]
      refine ⟨h.within old hmem, List.pairwise_singleton _ _, fun a ha b hb => ?_⟩
      rw [List.mem_singleton.mp hb]
      exact hold old hmem a ha
  · intro f hf g hg hlt a ha b hb
    obtain ⟨oldF, hoF, hnF, hF⟩ := h.mem_writeFrame hbytes hf
    obtain ⟨oldG, hoG, hnG, hG⟩ := h.mem_writeFrame hbytes hg
    rw [hnF, hnG] at hlt
    -- only the file beyond can hold the new entry: behind the open one there are none
    have haOld : a ∈ oldF.entries codec := by
      rcases hF with hF | ⟨hopen, -⟩
      · rwa [hF] at ha
      · exfalso
        have hempty := h.beyond_empty oldG hoG (hopen ▸ hlt)
        rcases hG with hG | ⟨hopenG, -⟩
        · rw [hG, hempty] at hb
          cases hb
        · rw [hopen, hopenG] at hlt
          exact absurd hlt (lt_irrefl _)
    rcases hG with hG | ⟨-, hG⟩
    · rw [hG] at hb
      exact h.across oldF hoF oldG hoG hlt a haOld b hb
    · rw [hG] at hb
      rcases List.mem_append.mp hb with hb | hb
      · exact h.across oldF hoF oldG hoG hlt a haOld b hb
      · rw [List.mem_singleton.mp hb]
        exact hold oldF hoF a haOld

theorem Inv.call (h : Inv codec s) (t : τ) {now : DateTime} {operation : Operation}
    (hlog : WalWriter.Loggable codec now operation)
    (hlt : s.writer.currentSequence + 1 < 2 ^ 64) : Inv codec (s.call codec t now operation) := by
  have hseq : s.writer.fetchSequence.currentSequence = s.writer.currentSequence + 1 :=
    Nat.mod_eq_of_lt hlt
  have hgrow : s.writer.currentSequence ≤ s.writer.fetchSequence.currentSequence := by
    rw [hseq]
    exact Nat.le_succ _
  have hfetch : Inv codec { s with writer := s.writer.fetchSequence } :=
    h.with_writer (h.writer.of_dir_eq rfl rfl h.writer.fileNumber_lt hgrow) rfl (fun _ => id) hgrow
  unfold SharedLog.call
  -- an entry that cannot be sealed or written out uses up its number and nothing else
  cases hseal : WalWriter.sealEntry codec s.writer.currentSequence now operation with
  | error e =>
    simp only [hseal]
    exact hfetch
  | ok entry =>
    cases hser : codec.serializeEntry entry with
    | error e =>
      simp only [hseal, hser]
      exact hfetch
    | ok bytes =>
      simp only [hseal, hser]
      obtain ⟨checksum, hentry, -⟩ := WalWriter.sealEntry_eq hseal
      have hnumber : entry.sequence = s.writer.currentSequence := by rw [hentry]
      refine hfetch.goto ⟨?_, ?_, ?_, (fun n hn => by cases hn), (fun n hn => by cases hn)⟩
      · rintro x ⟨⟩
        exact WalWriter.frames_of_sealEntry hlog (by omega) hseal hser
      · rintro x ⟨⟩
        dsimp only
        rw [hseq, hnumber]
        exact Nat.lt_succ_self _
      · -- the counter is above everything on disk, so the number just taken is too
        rintro x ⟨⟩ e he
        dsimp only
        rw [hnumber]
        exact h.writer.entries_lt e he

-- The numbers still to be written all lie above the one that is written.
theorem ThreadInv.writeFrame (h : ThreadInv codec w pc) (hwriter : WriterInv codec w)
    {entry : WalEntry} {bytes : Bytes} (hbytes : codec.Frames entry bytes)
    (hnext : ∀ other ∈ pc.held, entry.sequence < other.1.sequence) :
    ThreadInv codec (w.writeFrame bytes) pc := by
  obtain ⟨-, hperm, -⟩ := hwriter.sound.writeFrame hbytes
  refine ⟨h.framed, ?_, ?_, h.renumbering_lt, ?_⟩
  · rw [WalWriter.writeFrame_currentSequence]
    exact h.held_lt
  · intro x hx e he
    rcases List.mem_append.mp (hperm.mem_iff.mp he) with he | he
    · exact h.entries_lt x hx e he
    · rw [List.mem_singleton.mp he]
      exact hnext x hx
  · rw [WalWriter.writeFrame_dir, WalDir.modify_numbers]
    exact h.opening_mem

-- One step of a thread, by where it stands.
theorem Inv.advance (h : Inv codec s) {t : τ} (horderly : Orderly codec s (.advance t)) :
    Inv codec (s.advance t) := by
  have hthread := h.threads t
  unfold Orderly OrderlyAt at horderly
  unfold SharedLog.advance
  cases hpc : s.pc t with
  | idle => exact h
  | numbered entry bytes =>
    dsimp only
    split
    · exact h.move hpc rfl rfl rfl
    · exact h.move hpc rfl rfl rfl
  | rotating entry bytes =>
    rw [hpc] at hthread
    exact h.acquire (hthread.move rfl rfl rfl)
  | flushing entry bytes =>
    have hflush : Inv codec { s with writer := s.writer.flush, lock := none } :=
      h.with_writer (h.writer.of_dir_eq rfl rfl h.writer.fileNumber_lt le_rfl) rfl
        (fun _ => id) le_rfl
    exact hflush.move hpc rfl rfl rfl
  | flushed entry bytes =>
    rw [hpc] at hthread
    simp only [hpc] at horderly
    -- names have ten digits, and are ordered as the numbers are only below that
    have hnext : s.writer.fetchFileNumber.fileNumber < 10 ^ 10 :=
      (Nat.mod_le _ _).trans_lt horderly
    have hfetch : Inv codec { s with writer := s.writer.fetchFileNumber } :=
      h.with_writer (h.writer.of_dir_eq rfl rfl hnext le_rfl) rfl (fun _ => id) le_rfl
    refine hfetch.goto ⟨hthread.framed, hthread.held_lt, hthread.entries_lt, ?_,
      by simp [AppendPc.opening]⟩
    rintro n ⟨⟩
    exact hnext
  | renumbered entry bytes n =>
    rw [hpc] at hthread
    obtain ⟨-, hentries⟩ := h.writer.sound.framed.create n
    have hopen : Inv codec { s with writer := s.writer.openFile n } :=
      h.with_writer (h.writer.openFile (hthread.renumbering_lt n rfl)) hentries
        (fun m hm => WalDir.mem_create_numbers.mpr (.inl hm)) le_rfl
    refine hopen.goto ⟨hthread.framed, hthread.held_lt, ?_, by simp [AppendPc.renumbering], ?_⟩
    · intro x hx e he
      exact hthread.entries_lt x hx e (hentries ▸ he)
    · rintro m ⟨⟩
      exact WalDir.mem_create_numbers.mpr (.inr rfl)
  | opened entry bytes n =>
    rw [hpc] at hthread
    exact h.acquire ⟨hthread.framed, hthread.held_lt, hthread.entries_lt,
      by simp [AppendPc.renumbering], hthread.opening_mem⟩
  | installing entry bytes n =>
    rw [hpc] at hthread
    simp only [hpc] at horderly
    have hinstall : Inv codec { s with writer := s.writer.installFile n, lock := none } :=
      h.with_writer (h.writer.installFile (hthread.opening_mem n rfl) horderly) rfl
        (fun _ => id) le_rfl
    exact hinstall.move hpc rfl rfl rfl
  | installed entry bytes =>
    have hreset : Inv codec { s with writer := s.writer.resetFileSize } :=
      h.with_writer (h.writer.of_dir_eq rfl rfl h.writer.fileNumber_lt le_rfl) rfl
        (fun _ => id) le_rfl
    exact hreset.move hpc rfl rfl rfl
  | ready entry bytes =>
    rw [hpc] at hthread
    exact h.acquire (hthread.move rfl rfl rfl)
  | writing entry bytes =>
    rw [hpc] at hthread
    simp only [hpc] at horderly
    have hframes := hthread.framed _ rfl
    have hlast := hthread.entries_lt _ rfl
    refine ⟨h.writer.writeFrame hframes (hthread.held_lt _ rfl) hlast, fun u => ?_⟩
    simp only [SharedLog.goto, Function.update_apply]
    split
    · exact .of_held_none rfl rfl rfl
    · next hne => exact (h.threads u).writeFrame h.writer hframes (horderly u hne)
  | written size =>
    have hgrow : Inv codec { s with writer := s.writer.growFileSize size } :=
      h.with_writer (h.writer.of_dir_eq rfl rfl h.writer.fileNumber_lt le_rfl) rfl
        (fun _ => id) le_rfl
    exact hgrow.goto (.of_held_none rfl rfl rfl)

theorem Inv.step (h : Inv codec s) {move : Move τ} (horderly : Orderly codec s move) :
    Inv codec (s.step codec move) := by
  cases move with
  | call t now operation =>
    simp only [SharedLog.step]
    split
    · exact h.call t horderly.1 horderly.2
    · exact h
  | advance t => exact h.advance horderly

theorem Inv.run (h : Inv codec s) {moves : List (Move τ)} (horderly : OrderlyRun codec s moves) :
    Inv codec (s.run codec moves) := by
  induction moves generalizing s with
  | nil => exact h
  | cons move moves ih => exact ih (h.step horderly.1) horderly.2

omit [DecidableEq τ] in
-- What the invariant says about reading the files.
theorem Inv.inOrder (h : Inv codec s) : InOrder codec s := by
  have hframed := h.writer.sound.framed
  have hperm := scanWalFiles_perm s.writer.dir
  refine ⟨WalDir.entries codec (scanWalFiles s.writer.dir), WalDir.results_of_framed hframed, ?_,
    fun json now layer fromSequence => replayAllWals_of_framed json now fromSequence hframed
      layer⟩
  rw [WalDir.entries, List.pairwise_flatMap]
  refine ⟨fun file hfile => h.writer.within file (hperm.mem_iff.mp hfile), ?_⟩
  refine (scanWalFiles_pairwise h.writer.sound.numbers_nodup h.writer.numbers_lt).imp_of_mem ?_
  intro f g hf hg hlt a ha b hb
  exact h.writer.across f (hperm.mem_iff.mp hf) g (hperm.mem_iff.mp hg) hlt a ha b hb

/-- **Replay order is number order.**  After every orderly schedule of any number of appenders, the
files read in replay order hold the entries in the order of their numbers. -/
theorem run_inOrder (config : WalConfig) (moves : List (Move τ))
    (horderly : OrderlyRun codec (start codec config) moves) :
    InOrder codec ((start codec config : SharedLog τ).run codec moves) :=
  ((inv_start config).run horderly).inOrder

/-- Two appends by two threads, the second called while the first holds its number. -/
theorem run_inOrder_two :
    InOrder dropCodec ((start dropCodec .default : SharedLog Bool).run dropCodec
      [.call false 0 (.dropCollection "users"), .call true 0 (.dropCollection "users"),
       .advance false, .advance false, .advance false,
       .advance true, .advance true, .advance true]) := by
  have hlog := WalWriter.dropCodec_loggable
  refine run_inOrder .default _ ⟨⟨hlog, ?_⟩, ⟨hlog, ?_⟩, ?_, ?_, ?_, ?_, ?_, ?_, trivial⟩
  · decide +kernel
  · decide +kernel
  all_goals
    unfold Orderly
    decide +kernel

/-- The thread with number `1` writes before the thread with number `0`. -/
theorem run_out_of_order :
    ¬ InOrder dropCodec ((start dropCodec .default : SharedLog Bool).run dropCodec
      [.call false 0 (.dropCollection "users"), .call true 0 (.dropCollection "users"),
       .advance true, .advance true, .advance true,
       .advance false, .advance false, .advance false]) := by
  rintro ⟨read, hread, hincreasing, -⟩
  have hsequences : read.map WalEntry.sequence = [1, 0] := by
    have h := congrArg (List.filterMap fun r => (Except.toOption r).map WalEntry.sequence) hread
    rw [List.filterMap_map] at h
    rw [← List.filterMap_eq_map]
    exact h.symm.trans (by decide +kernel)
  have hpairwise : (read.map WalEntry.sequence).Pairwise (· < ·) :=
    List.pairwise_map.mpr hincreasing
  rw [hsequences] at hpairwise
  exact absurd hpairwise (by decide)

end SharedLog

end VedDb
