import VedDb.Encryption.KeyExport
import VedDb.Lib.Runs
import VedDb.Lib.Sha256

/-!
# The key file

`encryption/key_manager.rs` down to the bytes of `keys.json`.  An operation changes the keys in
memory and then writes the whole file over the old one.  The write can fail, or a crash can cut it
off, after any part of the text; what was changed in memory stays changed.
-/

namespace VedDb

open LittleEndian (Bytes)

/-- What the key manager rests on: the cipher of exported keys, the hash of a master key, and
`serde_json` on `KeyStorage`. -/
structure KeyFileEnv where
  exports : KeyExportEnv
  aead : Aead
  hashMasterKey : String → String
  toStringPretty : KeyStorage → Except String Bytes
  fromStr : Bytes → Except String KeyStorage

/-- A text that was written is read back, and it is not read without its last byte. -/
structure KeyFileEnv.Lawful (env : KeyFileEnv) : Prop where
  whole : ∀ {storage text}, env.toStringPretty storage = .ok text → env.fromStr text = .ok storage
  part : ∀ {storage text}, env.toStringPretty storage = .ok text → ∀ n,
    ∃ error, env.fromStr (text.dropLast.take n) = .error error

/-- A `KeyManager` with its master key. -/
structure KeyProcess where
  masterKey : Option String
  manager : KeyManager

variable (env : KeyFileEnv)

namespace KeyProcess

/-- `KeyManager::new` on what is in the key file. -/
def new (masterKey : Option String) (file : Option Bytes) : Except EncryptionError KeyProcess :=
  match KeyManager.new env.hashMasterKey masterKey none with
  | .error error => .error error
  | .ok manager =>
    match file with
    | none => .ok ⟨masterKey, manager⟩
    | some text =>
      match env.fromStr text with
      | .error error => .error (.storage error)
      | .ok storage =>
        match manager.loadKeys (some storage) with
        | .error error => .error error
        | .ok loaded => .ok ⟨masterKey, loaded⟩

/-- The key goes into the map in memory. -/
def withKey (process : KeyProcess) (entry : String × EncryptionKey) : KeyProcess :=
  { process with
    manager := { process.manager with keys := process.manager.keys.insert entry.1 entry.2 } }

/-- What `save_keys` writes. -/
def storage (process : KeyProcess) : KeyStorage :=
  ⟨process.manager.keys, process.manager.masterKeyHash⟩

end KeyProcess

/-! ## Operations and saves -/

/-- The operations that change a key, with the time and the random bytes they draw. -/
inductive KeyOp where
  | createKey (keyId : String) (now : DateTime) (bytes : Bytes)
  | rotateKey (keyId : String) (now : DateTime) (bytes : Bytes)
  | deactivateKey (keyId : String)
  | importKey (encryptedData : String)

/-- The key that an operation puts into the map, if it gets past its checks. -/
def KeyOp.change (process : KeyProcess) : KeyOp → Option (String × EncryptionKey)
  | .createKey keyId now bytes =>
    match process.manager.keys[keyId]? with
    | some _ => none
    | none =>
      some (keyId,
        { id := keyId, key := bytes, createdAt := now, lastRotated := now, active := true,
          version := 1 })
  | .rotateKey keyId now bytes =>
    process.manager.keys[keyId]?.map fun key => (keyId, KeyManager.rotated now key bytes)
  | .deactivateKey keyId =>
    process.manager.keys[keyId]?.map fun key => (keyId, { key with active := false })
  | .importKey encryptedData =>
    match process.manager.readExport env.exports env.aead process.masterKey encryptedData with
    | .error _ => none
    | .ok key => some (key.id, key)

/-- What becomes of the write of a key file.  An error or a crash leaves the file untouched, or with
a part of the new text; a crash can also come after the write and before the answer. -/
inductive SaveFate where
  | written
  | failed (part : Option Nat)
  | crashed (part : Option Nat)
  | unanswered

inductive KeyEvent where
  | call (op : KeyOp) (fate : SaveFate)
  | reopen (masterKey : Option String)

/-- A key file with the process that has it open.  Beside them stands what its operators know: the
master key under which the file was last written, and the keys that count as stored. -/
structure KeyDirectory where
  process : Option KeyProcess
  file : Option Bytes
  masterKey : Option String
  stored : Keys

namespace KeyDirectory

def empty : KeyDirectory := ⟨none, none, none, ∅⟩

variable (d : KeyDirectory)

def withProcess (process : Option KeyProcess) : KeyDirectory := { d with process := process }

/-- The file is written with a key in it, which counts as stored from now on. -/
def wrote (process : KeyProcess) (entry : String × EncryptionKey) (text : Bytes) : KeyDirectory :=
  { d with
    file := some text
    masterKey := process.masterKey
    stored := d.stored.insert entry.1 entry.2 }

/-- A write does not get to its end, or does not begin. -/
def stopped (text : Bytes) : Option Nat → KeyDirectory
  | none => d
  | some n => { d with file := some (text.dropLast.take n) }

def settle (process : KeyProcess) (entry : String × EncryptionKey) (text : Bytes) :
    SaveFate → KeyDirectory
  | .written => (d.wrote process entry text).withProcess (some (process.withKey entry))
  | .failed part => (d.stopped text part).withProcess (some (process.withKey entry))
  | .crashed part => (d.stopped text part).withProcess none
  | .unanswered => (d.wrote process entry text).withProcess none

/-- `save_keys`, after a key was put into the map. -/
def save (process : KeyProcess) (entry : String × EncryptionKey) (fate : SaveFate) :
    KeyDirectory :=
  match env.toStringPretty (process.withKey entry).storage with
  | .error _ => d.withProcess (some (process.withKey entry))
  | .ok text => d.settle process entry text fate

def step : KeyEvent → KeyDirectory
  | .call op fate =>
    match d.process with
    | none => d
    | some process =>
      match op.change env process with
      | none => d
      | some entry => d.save env process entry fate
  | .reopen masterKey => d.withProcess (KeyProcess.new env masterKey d.file).toOption

/-! ## What the file should hold -/

def Finds (masterKey : Option String) : Prop :=
  ∃ process, KeyProcess.new env masterKey d.file = .ok process ∧ process.manager.keys = d.stored

def Rejects (masterKey : Option String) : Prop :=
  ∃ error, KeyProcess.new env masterKey d.file = .error error

/-- The file opens under the master key that it was written under, not under one with another hash,
and without a master key on either side its keys are there for everyone. -/
structure Keeps : Prop where
  same : d.Finds env d.masterKey
  other : ∀ own given, d.masterKey = some own →
    env.hashMasterKey given ≠ env.hashMasterKey own → d.Rejects env (some given)
  short : ∀ given : String, given.utf8ByteSize < 16 → d.Rejects env (some given)
  missing : d.Finds env none
  unsealed : ∀ given : String, d.masterKey = none → 16 ≤ given.utf8ByteSize →
    d.Finds env (some given)

/-- A write that goes through finds no other key in memory than those that count as stored, and one
that does not leaves no part of its text behind. -/
def Allowed (process : KeyProcess) (entry : String × EncryptionKey) : SaveFate → Prop
  | .written | .unanswered =>
    ∀ other, other ≠ entry.1 → process.manager.keys[other]? = d.stored[other]?
  | .failed part | .crashed part => part = none

def Orderly : KeyEvent → Prop
  | .call op fate =>
    ∀ process entry text, d.process = some process → op.change env process = some entry →
      env.toStringPretty (process.withKey entry).storage = .ok text →
        d.Allowed process entry fate
  | .reopen _ => True

/-- After the step, the file keeps the keys. -/
def Right (event : KeyEvent) : Prop := (d.step env event).Keeps env

end KeyDirectory

/-! ## Opening a file -/

variable {env : KeyFileEnv}

/-- The master key is shorter than `derive_master_key` asks. -/
def TooShort (masterKey : Option String) : Prop :=
  ∃ given, masterKey = some given ∧ given.utf8ByteSize < 16

theorem KeyManager.new_tooShort {hashMasterKey : String → String} {masterKey : Option String}
    (h : TooShort masterKey) :
    KeyManager.new hashMasterKey masterKey none = .error .masterKeyTooShort := by
  obtain ⟨given, rfl, hshort⟩ := h
  exact if_pos hshort

theorem KeyManager.new_none {hashMasterKey : String → String} {masterKey : Option String}
    (h : ¬TooShort masterKey) :
    KeyManager.new hashMasterKey masterKey none = .ok ⟨∅, masterKey.map hashMasterKey⟩ := by
  cases masterKey with
  | none => rfl
  | some given => exact if_neg fun hshort => h ⟨given, rfl, hshort⟩

namespace KeyProcess

variable {masterKey : Option String} {file : Option Bytes} {text : Bytes}

structure Proper (env : KeyFileEnv) (process : KeyProcess) : Prop where
  hash : process.manager.masterKeyHash = process.masterKey.map env.hashMasterKey
  long : ¬TooShort process.masterKey

theorem Proper.withKey {process : KeyProcess} (h : process.Proper env)
    (entry : String × EncryptionKey) : (process.withKey entry).Proper env :=
  ⟨h.hash, h.long⟩

theorem new_tooShort (h : TooShort masterKey) :
    new env masterKey file = .error .masterKeyTooShort := by
  rw [new, KeyManager.new_tooShort h]

theorem new_none (h : ¬TooShort masterKey) :
    new env masterKey none = .ok ⟨masterKey, ∅, masterKey.map env.hashMasterKey⟩ := by
  rw [new, KeyManager.new_none h]

theorem new_some {storage : KeyStorage} (h : ¬TooShort masterKey)
    (htext : env.fromStr text = .ok storage) :
    new env masterKey (some text) =
      if KeyManager.hashMismatch storage.masterKeyHash (masterKey.map env.hashMasterKey) then
        .error .masterKeyMismatch
      else .ok ⟨masterKey, storage.keys, masterKey.map env.hashMasterKey⟩ := by
  rw [new, KeyManager.new_none h]
  dsimp only
  rw [htext]
  dsimp only
  rw [KeyManager.loadKeys_some]
  dsimp only
  cases KeyManager.hashMismatch storage.masterKeyHash (masterKey.map env.hashMasterKey) with
  | true => rfl
  | false => rfl

/-- A file that is not read does not open. -/
theorem new_unread (masterKey : Option String) {error : String}
    (htext : env.fromStr text = .error error) :
    ∃ error, new env masterKey (some text) = .error error := by
  by_cases hshort : TooShort masterKey
  · exact ⟨_, new_tooShort hshort⟩
  · rw [new, KeyManager.new_none hshort]
    dsimp only
    rw [htext]
    exact ⟨_, rfl⟩

theorem new_proper {process : KeyProcess} (h : new env masterKey file = .ok process) :
    process.Proper env := by
  by_cases hshort : TooShort masterKey
  · rw [new_tooShort hshort] at h
    cases h
  · cases file with
    | none =>
      rw [new_none hshort] at h
      cases h
      exact ⟨rfl, hshort⟩
    | some text =>
      cases htext : env.fromStr text with
      | error error =>
        obtain ⟨error, herror⟩ := new_unread masterKey htext
        rw [herror] at h
        cases h
      | ok storage =>
        rw [new_some hshort htext] at h
        split at h
        next => cases h
        next =>
          cases h
          exact ⟨rfl, hshort⟩

end KeyProcess

/-! ## What a write leaves -/

namespace KeyDirectory

variable {d : KeyDirectory} {process : KeyProcess} {entry : String × EncryptionKey} {text : Bytes}

/-- The file holds the keys that count as stored, under the hash of its master key. -/
structure Sound (env : KeyFileEnv) (d : KeyDirectory) : Prop where
  unwritten : d.file = none → d.stored = ∅ ∧ d.masterKey = none
  reads : ∀ {text}, d.file = some text →
    env.fromStr text = .ok ⟨d.stored, d.masterKey.map env.hashMasterKey⟩
  long : ¬TooShort d.masterKey

theorem Sound.new_eq (h : d.Sound env) {masterKey : Option String} (hlong : ¬TooShort masterKey) :
    KeyProcess.new env masterKey d.file =
      if KeyManager.hashMismatch (d.masterKey.map env.hashMasterKey)
          (masterKey.map env.hashMasterKey) then .error .masterKeyMismatch
      else .ok ⟨masterKey, d.stored, masterKey.map env.hashMasterKey⟩ := by
  cases hfile : d.file with
  | none =>
    obtain ⟨hstored, hmasterKey⟩ := h.unwritten hfile
    rw [KeyProcess.new_none hlong, hstored, hmasterKey]
    rfl
  | some text => exact KeyProcess.new_some hlong (h.reads hfile)

theorem Sound.finds (h : d.Sound env) {masterKey : Option String} (hlong : ¬TooShort masterKey)
    (hsame : KeyManager.hashMismatch (d.masterKey.map env.hashMasterKey)
      (masterKey.map env.hashMasterKey) = false) : d.Finds env masterKey := by
  rw [Finds, h.new_eq hlong, hsame]
  exact ⟨_, rfl, rfl⟩

theorem not_tooShort_none : ¬TooShort none := by
  rintro ⟨given, hgiven, -⟩
  cases hgiven

theorem hashMismatch_none (hash : Option String) : KeyManager.hashMismatch hash none = false := by
  cases hash with
  | none => rfl
  | some hash => rfl

theorem Sound.keeps (h : d.Sound env) : d.Keeps env where
  same := h.finds h.long (KeyManager.hashMismatch_self _)
  other own given hown hne := by
    by_cases hshort : TooShort (some given)
    · exact ⟨_, KeyProcess.new_tooShort hshort⟩
    · have hmismatch : KeyManager.hashMismatch ((some own).map env.hashMasterKey)
          ((some given).map env.hashMasterKey) = true := bne_iff_ne.mpr hne.symm
      rw [Rejects, h.new_eq hshort, hown, if_pos hmismatch]
      exact ⟨_, rfl⟩
  short given hshort := ⟨_, KeyProcess.new_tooShort ⟨given, rfl, hshort⟩⟩
  missing := h.finds not_tooShort_none (hashMismatch_none _)
  unsealed given hnone hlong := by
    refine h.finds ?_ ?_
    · rintro ⟨own, hown, hshort⟩
      cases hown
      omega
    · rw [hnone]
      rfl

theorem keeps_withProcess (next : Option KeyProcess) :
    (d.withProcess next).Keeps env ↔ d.Keeps env :=
  ⟨fun h => ⟨h.same, h.other, h.short, h.missing, h.unsealed⟩,
    fun h => ⟨h.same, h.other, h.short, h.missing, h.unsealed⟩⟩

theorem Sound.withProcess (h : d.Sound env) (next : Option KeyProcess) :
    (d.withProcess next).Sound env :=
  ⟨h.unwritten, h.reads, h.long⟩

/-- A write that went through leaves a sound file if the other keys in memory count as stored. -/
theorem sound_wrote (henv : env.Lawful) (hproper : process.Proper env)
    (htext : env.toStringPretty (process.withKey entry).storage = .ok text)
    (hagree : ∀ other, other ≠ entry.1 → process.manager.keys[other]? = d.stored[other]?) :
    (d.wrote process entry text).Sound env where
  unwritten hfile := by cases hfile
  reads hfile := by
    cases hfile
    have hkeys : process.manager.keys.insert entry.1 entry.2 = d.stored.insert entry.1 entry.2 :=
      insert_eq_insert_iff.mpr hagree
    rw [henv.whole htext, KeyProcess.storage, (hproper.withKey entry).hash]
    exact congrArg (fun keys => Except.ok (KeyStorage.mk keys _)) hkeys
  long := hproper.long

theorem wrote_keeps_iff (henv : env.Lawful) (hproper : process.Proper env)
    (htext : env.toStringPretty (process.withKey entry).storage = .ok text) :
    (d.wrote process entry text).Keeps env ↔
      ∀ other, other ≠ entry.1 → process.manager.keys[other]? = d.stored[other]? := by
  constructor
  · intro hkeeps
    obtain ⟨found, hnew, hkeys⟩ := hkeeps.missing
    rw [wrote, KeyProcess.new_some not_tooShort_none (henv.whole htext),
      Option.map_none, hashMismatch_none] at hnew
    cases hnew
    exact insert_eq_insert_iff.mp hkeys
  · intro hagree
    exact (sound_wrote henv hproper htext hagree).keeps

theorem stopped_keeps_iff (henv : env.Lawful) (h : d.Sound env) {storage : KeyStorage}
    (htext : env.toStringPretty storage = .ok text) (part : Option Nat) :
    (d.stopped text part).Keeps env ↔ part = none := by
  cases part with
  | none => exact iff_of_true h.keeps rfl
  | some n =>
    refine iff_of_false ?_ (Option.some_ne_none n)
    intro hkeeps
    obtain ⟨error, hpart⟩ := henv.part htext n
    obtain ⟨error, herror⟩ := KeyProcess.new_unread none hpart
    obtain ⟨found, hnew, -⟩ := hkeeps.missing
    rw [stopped, herror] at hnew
    cases hnew

theorem settle_keeps_iff (henv : env.Lawful) (h : d.Sound env) (hproper : process.Proper env)
    (htext : env.toStringPretty (process.withKey entry).storage = .ok text) (fate : SaveFate) :
    (d.settle process entry text fate).Keeps env ↔ d.Allowed process entry fate := by
  cases fate with
  | written | unanswered =>
    rw [settle, keeps_withProcess]
    exact wrote_keeps_iff henv hproper htext
  | failed part | crashed part =>
    rw [settle, keeps_withProcess]
    exact stopped_keeps_iff henv h htext part

/-! ## Every run -/

/-- The file is sound, and the process that has it open was started properly. -/
structure Running (env : KeyFileEnv) (d : KeyDirectory) : Prop where
  sound : d.Sound env
  proper : ∀ {process}, d.process = some process → process.Proper env

theorem running_empty : empty.Running env where
  sound := ⟨fun _ => ⟨rfl, rfl⟩, fun hfile => (by cases hfile), not_tooShort_none⟩
  proper hprocess := by cases hprocess

theorem Running.withProcess (h : d.Sound env) (hproper : process.Proper env) :
    (d.withProcess (some process)).Running env where
  sound := h.withProcess _
  proper hprocess := by
    cases hprocess
    exact hproper

theorem Running.withoutProcess (h : d.Sound env) : (d.withProcess none).Running env where
  sound := h.withProcess none
  proper hprocess := by cases hprocess

theorem running_settle (henv : env.Lawful) (h : d.Sound env) (hproper : process.Proper env)
    (htext : env.toStringPretty (process.withKey entry).storage = .ok text) {fate : SaveFate}
    (hallowed : d.Allowed process entry fate) : (d.settle process entry text fate).Running env := by
  cases fate with
  | written =>
    exact .withProcess (sound_wrote henv hproper htext hallowed) (hproper.withKey entry)
  | unanswered => exact .withoutProcess (sound_wrote henv hproper htext hallowed)
  | failed part =>
    have hpart : part = none := hallowed
    rw [hpart]
    exact .withProcess h (hproper.withKey entry)
  | crashed part =>
    have hpart : part = none := hallowed
    rw [hpart]
    exact .withoutProcess h

/-- A call leaves the file as it is, or it gets as far as the write. -/
theorem call_cases (h : d.Running env) (op : KeyOp) (fate : SaveFate) :
    (d.step env (.call op fate)).Running env ∧ d.Orderly env (.call op fate) ∨
      ∃ process entry text, process.Proper env ∧
        env.toStringPretty (process.withKey entry).storage = .ok text ∧
        d.step env (.call op fate) = d.settle process entry text fate ∧
        (d.Orderly env (.call op fate) ↔ d.Allowed process entry fate) := by
  rw [step, Orderly]
  cases hprocess : d.process with
  | none =>
    refine .inl ⟨h, ?_⟩
    rintro process entry text ⟨⟩
  | some process =>
    dsimp only
    cases hchange : op.change env process with
    | none =>
      refine .inl ⟨h, ?_⟩
      rintro _ entry text ⟨⟩ hentry
      rw [hchange] at hentry
      cases hentry
    | some entry =>
      dsimp only
      have hproper := h.proper hprocess
      cases htext : env.toStringPretty (process.withKey entry).storage with
      | error error =>
        rw [save, htext]
        refine .inl ⟨.withProcess h.sound (hproper.withKey entry), ?_⟩
        rintro _ own text ⟨⟩ hown
        rw [hchange] at hown
        cases hown
        rw [htext]
        rintro ⟨⟩
      | ok text =>
        refine .inr ⟨process, entry, text, hproper, htext, ?_, ?_⟩
        · rw [save, htext]
        · constructor
          · intro horderly
            exact horderly process entry text rfl hchange htext
          · rintro hallowed _ own ownText ⟨⟩ hown hownText
            rw [hchange] at hown
            cases hown
            exact hallowed

theorem Running.reopen (h : d.Running env) (masterKey : Option String) :
    (d.step env (.reopen masterKey)).Running env := by
  rw [step]
  cases hnew : KeyProcess.new env masterKey d.file with
  | error error => exact .withoutProcess h.sound
  | ok process => exact .withProcess h.sound (KeyProcess.new_proper hnew)

theorem running_step (henv : env.Lawful) (h : d.Running env) {event : KeyEvent}
    (horderly : d.Orderly env event) : (d.step env event).Running env := by
  cases event with
  | reopen masterKey => exact h.reopen masterKey
  | call op fate =>
    rcases call_cases h op fate with
      ⟨hrunning, -⟩ | ⟨process, entry, text, hproper, htext, hstep, hiff⟩
    · exact hrunning
    · rw [hstep]
      exact running_settle henv h.sound hproper htext (hiff.mp horderly)

theorem right_iff_orderly (henv : env.Lawful) (h : d.Running env) (event : KeyEvent) :
    d.Right env event ↔ d.Orderly env event := by
  cases event with
  | reopen masterKey => exact iff_of_true (h.reopen masterKey).sound.keeps trivial
  | call op fate =>
    rcases call_cases h op fate with
      ⟨hrunning, horderly⟩ | ⟨process, entry, text, hproper, htext, hstep, hiff⟩
    · exact iff_of_true hrunning.sound.keeps horderly
    · rw [Right, hstep, hiff]
      exact settle_keeps_iff henv h.sound hproper htext fate

/-- In the runs whose saves are all orderly, and in no others, the file holds after every step
exactly the keys that count as stored, and opens under the master keys it should open under. -/
theorem file_keeps_keys_iff (henv : env.Lawful) (events : List KeyEvent) :
    MeetsAlong (step env) (Right env) empty events ↔
      MeetsAlong (step env) (Orderly env) empty events := by
  refine meetsAlong_iff (I := Running env) ?_ ?_ running_empty
  · rintro d event - h horderly
    exact running_step henv h horderly
  · rintro d event - h
    exact right_iff_orderly henv h event

/-! ### Runs without failed saves -/

/-- The save reaches the file, or the process ends before its write begins. -/
def Unfailed : KeyEvent → Prop
  | .call _ (.failed _) | .call _ (.crashed (some _)) => False
  | .call _ .written | .call _ .unanswered | .call _ (.crashed none) | .reopen _ => True

/-- The process has in memory the keys that count as stored. -/
def InStep (d : KeyDirectory) : Prop :=
  ∀ {process}, d.process = some process → process.manager.keys = d.stored

theorem InStep.orderly (h : d.InStep) {event : KeyEvent} (hunfailed : Unfailed event) :
    d.Orderly env event := by
  cases event with
  | reopen masterKey => trivial
  | call op fate =>
    rintro process entry text hprocess - -
    cases fate with
    | written | unanswered =>
      rintro other -
      rw [h hprocess]
    | failed part => exact hunfailed.elim
    | crashed part =>
      cases part with
      | none => rfl
      | some n => exact hunfailed.elim

theorem InStep.settle (h : d.InStep) (hprocess : d.process = some process) {op : KeyOp}
    {fate : SaveFate} (hunfailed : Unfailed (.call op fate)) :
    (d.settle process entry text fate).InStep := by
  cases fate with
  | written =>
    rintro _ ⟨⟩
    exact congrArg (·.insert entry.1 entry.2) (h hprocess)
  | failed part => exact hunfailed.elim
  | crashed part => rintro _ ⟨⟩
  | unanswered => rintro _ ⟨⟩

/-- Where the map is always written out, what is in memory and what is stored stay in step. -/
theorem InStep.step (h : d.InStep) (hsound : d.Sound env)
    (htotal : ∀ storage, ∃ text, env.toStringPretty storage = .ok text) {event : KeyEvent}
    (hunfailed : Unfailed event) : (d.step env event).InStep := by
  cases event with
  | reopen masterKey =>
    rintro process hprocess
    rw [KeyDirectory.step, withProcess] at hprocess
    by_cases hshort : TooShort masterKey
    · rw [KeyProcess.new_tooShort hshort] at hprocess
      cases hprocess
    · rw [hsound.new_eq hshort] at hprocess
      split at hprocess
      next => cases hprocess
      next =>
        cases hprocess
        rfl
  | call op fate =>
    rw [KeyDirectory.step]
    cases hprocess : d.process with
    | none => exact h
    | some process =>
      dsimp only
      cases op.change env process with
      | none => exact h
      | some entry =>
        obtain ⟨text, htext⟩ := htotal (process.withKey entry).storage
        dsimp only
        rw [save, htext]
        exact h.settle hprocess hunfailed

/-- In a run without failed saves the file holds after every step the keys that count as stored. -/
theorem keeps_of_unfailed (henv : env.Lawful)
    (htotal : ∀ storage, ∃ text, env.toStringPretty storage = .ok text) {events : List KeyEvent}
    (h : ∀ event ∈ events, Unfailed event) : MeetsAlong (step env) (Right env) empty events := by
  refine MeetsAlong.imp (I := fun d => d.Running env ∧ d.InStep) ?_ ?_
    ⟨running_empty, ?_⟩ (meetsAlong_of_forall fun _ event hmem => h event hmem)
  · rintro d event ⟨hrunning, hin⟩ hunfailed
    exact ⟨running_step henv hrunning (hin.orderly hunfailed),
      hin.step hrunning.sound htotal hunfailed⟩
  · rintro d event ⟨hrunning, hin⟩ hunfailed
    exact (right_iff_orderly henv hrunning event).mpr (hin.orderly hunfailed)
  · rintro process ⟨⟩

end KeyDirectory

/-! ## A file with one key -/

def hexDigits (bytes : Bytes) : String :=
  String.ofList (bytes.flatMap fun b =>
    [Nat.digitChar (b.toNat / 16), Nat.digitChar (b.toNat % 16)])

/-- `hash_master_key` after `derive_master_key`. -/
def sha256MasterKey (masterKey : String) : String :=
  hexDigits (Sha256.hash
    (Sha256.hash (utf8 masterKey ++ utf8 "veddb_master_key_salt") ++ utf8 "veddb_key_verification"))

def oneFile (storage : KeyStorage) (text : Bytes) : KeyFileEnv where
  exports :=
    { deriveMasterKey := utf8
      hexEncode := hexDigits
      hexDecode := fun _ => .error "Odd number of digits"
      toVec := fun _ => .error "not written"
      fromSlice := fun _ => .error "expected value"
      dateTime := fun _ => .null
      parseDateTime := fun _ => .error "invalid type: null"
      warnDays := fun days => days.toNat * 4 / 5 }
  aead := prefixCipher
  hashMasterKey := sha256MasterKey
  toStringPretty own :=
    if own.keys = storage.keys ∧ own.masterKeyHash = storage.masterKeyHash then .ok text
    else .error "not written"
  fromStr own := if own = text then .ok storage else .error "EOF while parsing an object"

theorem oneFile_toStringPretty (storage : KeyStorage) (text : Bytes) :
    (oneFile storage text).toStringPretty storage = .ok text :=
  if_pos ⟨rfl, rfl⟩

theorem oneFile_fromStr (storage : KeyStorage) (text : Bytes) :
    (oneFile storage text).fromStr text = .ok storage :=
  if_pos rfl

theorem oneFile_lawful (storage : KeyStorage) (first : UInt8) (rest : Bytes) :
    (oneFile storage (first :: rest)).Lawful where
  whole := by
    intro own text htext
    rw [oneFile] at htext
    dsimp only at htext
    split at htext
    next hown =>
      cases htext
      rw [oneFile_fromStr]
      rcases own with ⟨keys, hash⟩
      obtain ⟨hkeys, hhash⟩ := hown
      cases hkeys
      cases hhash
      rfl
    next => cases htext
  part := by
    intro own text htext n
    rw [oneFile] at htext
    dsimp only at htext
    split at htext
    next =>
      cases htext
      refine ⟨_, if_neg fun hpart => ?_⟩
      have hlength := congrArg List.length hpart
      rw [List.length_take, List.length_dropLast, List.length_cons] at hlength
      omega
    next => cases htext

namespace KeyDirectory

def usersMasterKey : String := "test_master_key_16_chars"

def usersKey : EncryptionKey where
  id := "users"
  key := List.replicate 32 0
  createdAt := epoch
  lastRotated := epoch
  active := true
  version := 1

def usersProcess : KeyProcess :=
  ⟨some usersMasterKey, ∅, some (sha256MasterKey usersMasterKey)⟩

def usersStorage : KeyStorage := (usersProcess.withKey ("users", usersKey)).storage

/-- The file after its opening brace. -/
def usersText : Bytes :=
  utf8 (
    "\n  \"keys\": \x7b\n    \"users\": \x7b\n      \"id\": \"users\"," ++
    "\n      \"key\": [\n        " ++
    String.intercalate ",\n        " (List.replicate 32 "0") ++
    "\n      ],\n      \"created_at\": \"1970-01-01T00:00:00Z\"," ++
    "\n      \"last_rotated\": \"1970-01-01T00:00:00Z\"," ++
    "\n      \"active\": true,\n      \"version\": 1\n    \x7d\n  \x7d," ++
    "\n  \"master_key_hash\": \"" ++ sha256MasterKey usersMasterKey ++ "\"\n\x7d")

def usersEnv : KeyFileEnv := oneFile usersStorage (0x7B :: usersText)

/-- A process is started, creates a key and is followed by one without a master key. -/
def usersRun : List KeyEvent :=
  [.reopen (some usersMasterKey),
    .call (.createKey "users" epoch (List.replicate 32 0)) .written,
    .reopen none]

theorem step_reopen_first :
    empty.step usersEnv (.reopen (some usersMasterKey)) =
      empty.withProcess (some usersProcess) := by
  have hlong : ¬TooShort (some usersMasterKey) := by
    rintro ⟨given, ⟨⟩, hshort⟩
    revert hshort
    decide
  have hnew : KeyProcess.new usersEnv (some usersMasterKey) none = .ok usersProcess :=
    KeyProcess.new_none hlong
  rw [step]
  exact congrArg (fun result => empty.withProcess (Except.toOption result)) hnew

def usersDirectory : KeyDirectory :=
  (empty.withProcess (some usersProcess)).settle usersProcess ("users", usersKey)
    (0x7B :: usersText) .written

theorem step_createKey_first :
    (empty.withProcess (some usersProcess)).step usersEnv
        (.call (.createKey "users" epoch (List.replicate 32 0)) .written) = usersDirectory := by
  have hchange : (KeyOp.createKey "users" epoch (List.replicate 32 0)).change usersEnv
      usersProcess = some ("users", usersKey) := by
    have hnone : usersProcess.manager.keys["users"]? = none := Std.ExtTreeMap.getElem?_empty
    rw [KeyOp.change, hnone]
    rfl
  have htext : usersEnv.toStringPretty (usersProcess.withKey ("users", usersKey)).storage =
      .ok (0x7B :: usersText) := oneFile_toStringPretty usersStorage (0x7B :: usersText)
  rw [step, withProcess]
  dsimp only
  rw [hchange]
  dsimp only
  rw [save, htext]
  rfl

/-- The run is orderly: the key is created in an empty map. -/
theorem usersRun_orderly : MeetsAlong (step usersEnv) (Orderly usersEnv) empty usersRun := by
  refine ⟨trivial, ?_, trivial, trivial⟩
  rw [step_reopen_first]
  rintro process entry text ⟨⟩ - - other -
  rfl

theorem file_keeps_keys_iff_users :
    MeetsAlong (step usersEnv) (Right usersEnv) empty usersRun :=
  (file_keeps_keys_iff (oneFile_lawful usersStorage 0x7B usersText) usersRun).mpr usersRun_orderly

def Exclusive (env : KeyFileEnv) (d : KeyDirectory) : Prop :=
  d.Finds env d.masterKey ∧
    ∀ given, given ≠ d.masterKey → d.file ≠ none → d.Rejects env given

/-- A process without a master key is given the keys of a file that was written under one. -/
theorem missing_masterKey_opens :
    ¬∀ events : List KeyEvent, (events.foldl (step usersEnv) empty).Exclusive usersEnv := by
  intro h
  have hexclusive := h [.reopen (some usersMasterKey),
    .call (.createKey "users" epoch (List.replicate 32 0)) .written]
  rw [List.foldl_cons, List.foldl_cons, List.foldl_nil, step_reopen_first,
    step_createKey_first] at hexclusive
  obtain ⟨error, herror⟩ := hexclusive.2 none (Option.some_ne_none usersMasterKey).symm
    (Option.some_ne_none (0x7B :: usersText))
  have hfile : usersEnv.fromStr (0x7B :: usersText) = .ok usersStorage :=
    oneFile_fromStr usersStorage (0x7B :: usersText)
  have hopens := KeyProcess.new_some not_tooShort_none hfile
  rw [Option.map_none, hashMismatch_none] at hopens
  cases hopens.symm.trans herror

end KeyDirectory

/-! ## The operations as programs -/

namespace KeyManager

open Durable

variable {σ : Type} {rng : Rng} {now : DateTime} {keyId : String} {masterKey : Option String}

/-- The key goes into the map, and the file is written. -/
def store (entry : String × EncryptionKey) (cut : Cut) (w : RotationWorld σ) : RotationWorld σ :=
  saveKeys.final cut
    { w with
      keyManager := { w.keyManager with keys := w.keyManager.keys.insert entry.1 entry.2 } }

theorem createKey_final (cut : Cut) (w : RotationWorld σ) :
    (createKey rng now keyId).final cut w =
      match (KeyOp.createKey keyId now (rng.key w.drawn)).change env ⟨masterKey, w.keyManager⟩ with
      | none => w
      | some entry => store entry cut { w with drawn := w.drawn + 1 } := by
  rw [KeyOp.change, createKey, Program.final, Program.run_bind]
  dsimp only [Program.run_read, id_eq]
  cases w.keyManager.keys[keyId]? with
  | none => rfl
  | some key => rfl

theorem rotateKeyWithBackup_final (cut : Cut) (w : RotationWorld σ) :
    (rotateKeyWithBackup rng now keyId).final cut w =
      match (KeyOp.rotateKey keyId now (rng.key w.drawn)).change env ⟨masterKey, w.keyManager⟩ with
      | none => w
      | some entry => store entry cut { w with drawn := w.drawn + 1 } := by
  rw [KeyOp.change, rotateKeyWithBackup, Program.final, Program.run_bind]
  dsimp only [Program.run_read, id_eq]
  cases w.keyManager.keys[keyId]? with
  | none => rfl
  | some key => exact Program.final_bind_pure saveKeys key.key cut _

theorem deactivateKey_final (cut : Cut) (w : RotationWorld σ) :
    (deactivateKey keyId).final cut w =
      match (KeyOp.deactivateKey keyId).change env ⟨masterKey, w.keyManager⟩ with
      | none => w
      | some entry => store entry cut w := by
  rw [KeyOp.change, deactivateKey, Program.final, Program.run_bind]
  dsimp only [Program.run_read, id_eq]
  cases w.keyManager.keys[keyId]? with
  | none => rfl
  | some key => rfl

theorem importKey_world (engine : EncryptionEngine σ) (encryptedData : String) :
    (engine.importKey env.exports env.aead encryptedData).2.world =
      match (KeyOp.importKey encryptedData).change env
        ⟨engine.config.masterKey, engine.world.keyManager⟩ with
      | none => engine.world
      | some entry => store entry none engine.world := by
  rw [KeyOp.change, EncryptionEngine.importKey]
  dsimp only
  cases engine.world.keyManager.readExport env.exports env.aead engine.config.masterKey
    encryptedData with
  | error error => rfl
  | ok key => rfl

end KeyManager

namespace KeyDirectory

open Durable

/-- The cut of a write that goes through, or is refused. -/
inductive Cuts : SaveFate → Cut → Prop
  | written : Cuts .written none
  | refused : Cuts (.failed none) (some (0, .error))

/-- What the operations of a process with the master key leave of its world. -/
inductive Performs {σ : Type} (env : KeyFileEnv) (masterKey : Option String) :
    KeyEvent → RotationWorld σ → RotationWorld σ → Prop
  | createKey (rng : Rng) (now : DateTime) (keyId : String) (w : RotationWorld σ)
    {fate : SaveFate} {cut : Cut} (hcut : Cuts fate cut) :
    Performs env masterKey (.call (.createKey keyId now (rng.key w.drawn)) fate) w
      ((KeyManager.createKey rng now keyId).final cut w)
  | rotateKey (rng : Rng) (now : DateTime) (keyId : String) (w : RotationWorld σ)
    {fate : SaveFate} {cut : Cut} (hcut : Cuts fate cut) :
    Performs env masterKey (.call (.rotateKey keyId now (rng.key w.drawn)) fate) w
      ((KeyManager.rotateKeyWithBackup rng now keyId).final cut w)
  | deactivateKey (keyId : String) (w : RotationWorld σ) {fate : SaveFate} {cut : Cut}
    (hcut : Cuts fate cut) :
    Performs env masterKey (.call (.deactivateKey keyId) fate) w
      ((KeyManager.deactivateKey keyId).final cut w)
  | importKey (engine : EncryptionEngine σ) (encryptedData : String)
    (hmasterKey : engine.config.masterKey = masterKey) :
    Performs env masterKey (.call (.importKey encryptedData) .written) engine.world
      (engine.importKey env.exports env.aead encryptedData).2.world
  | reopen (w : RotationWorld σ) : Performs env masterKey (.reopen masterKey) w w.restart

structure Shows {σ : Type} (env : KeyFileEnv) (masterKey : Option String) (d : KeyDirectory)
    (w : RotationWorld σ) : Prop where
  process : d.process = some ⟨masterKey, w.keyManager⟩
  proper : KeyProcess.Proper env ⟨masterKey, w.keyManager⟩
  file : Option.Rel (fun text storage => env.fromStr text = .ok storage ∧
    storage.masterKeyHash = w.keyManager.masterKeyHash) d.file w.keyFile

variable {σ : Type} {w w' : RotationWorld σ} {d : KeyDirectory} {op : KeyOp} {fate : SaveFate}
  {cut : Cut} {masterKey : Option String}

theorem Shows.start (hlong : ¬TooShort masterKey) (hfile : w.keyFile = none)
    (hmanager : w.keyManager = ⟨∅, masterKey.map env.hashMasterKey⟩) :
    (empty.step env (.reopen masterKey)).Shows env masterKey w where
  process := by
    have hnew : KeyProcess.new env masterKey none = .ok ⟨masterKey, w.keyManager⟩ := by
      rw [KeyProcess.new_none hlong, hmanager]
    exact congrArg Except.toOption hnew
  proper := by
    rw [hmanager]
    exact ⟨rfl, hlong⟩
  file := by
    rw [hfile]
    exact .none

theorem Shows.store (henv : env.Lawful) (h : d.Shows env masterKey w) (hcut : Cuts fate cut)
    {entry : String × EncryptionKey} {text : Bytes} (drawn : Nat)
    (htext : env.toStringPretty (KeyProcess.withKey ⟨masterKey, w.keyManager⟩ entry).storage =
      .ok text) :
    (d.settle ⟨masterKey, w.keyManager⟩ entry text fate).Shows env masterKey
      (KeyManager.store entry cut { w with drawn := drawn }) := by
  cases hcut with
  | written => exact ⟨rfl, ⟨h.proper.hash, h.proper.long⟩, .some ⟨henv.whole htext, rfl⟩⟩
  | refused => exact ⟨rfl, ⟨h.proper.hash, h.proper.long⟩, h.file⟩

theorem Shows.call (henv : env.Lawful)
    (htotal : ∀ storage, ∃ text, env.toStringPretty storage = .ok text)
    (h : d.Shows env masterKey w) (hcut : Cuts fate cut) (drawn : Nat)
    (hw : w' = match op.change env ⟨masterKey, w.keyManager⟩ with
      | none => w
      | some entry => KeyManager.store entry cut { w with drawn := drawn }) :
    (d.step env (.call op fate)).Shows env masterKey w' := by
  rw [KeyDirectory.step, h.process, hw]
  dsimp only
  cases op.change env ⟨masterKey, w.keyManager⟩ with
  | none => exact h
  | some entry =>
    obtain ⟨text, htext⟩ := htotal (KeyProcess.withKey ⟨masterKey, w.keyManager⟩ entry).storage
    dsimp only
    rw [save, htext]
    exact h.store henv hcut drawn htext

theorem Shows.reopen (h : d.Shows env masterKey w) :
    (d.step env (.reopen masterKey)).Shows env masterKey w.restart := by
  have hhash : w.keyManager.masterKeyHash = masterKey.map env.hashMasterKey := h.proper.hash
  have hmanager (keys : Keys) (hkeys : (w.keyFile.map KeyStorage.keys).getD ∅ = keys) :
      w.restart.keyManager = ⟨keys, masterKey.map env.hashMasterKey⟩ := by
    rw [← hkeys, ← hhash]
    rfl
  have hnew : KeyProcess.new env masterKey d.file = .ok ⟨masterKey, w.restart.keyManager⟩ := by
    have hread := h.file
    generalize d.file = file, hkeyFile : w.keyFile = keyFile at hread ⊢
    cases hread with
    | none =>
      rw [KeyProcess.new_none h.proper.long, hmanager ∅ (by rw [hkeyFile]; rfl)]
    | @some text storage hread =>
      rw [KeyProcess.new_some h.proper.long hread.1, hread.2, hhash, KeyManager.hashMismatch_self,
        hmanager storage.keys (by rw [hkeyFile]; rfl)]
      rfl
  exact ⟨congrArg Except.toOption hnew, ⟨h.proper.hash, h.proper.long⟩, h.file⟩

/-- The directory simulates the programs of the key manager and their restarts. -/
theorem Shows.step (henv : env.Lawful)
    (htotal : ∀ storage, ∃ text, env.toStringPretty storage = .ok text) {event : KeyEvent}
    (h : d.Shows env masterKey w) (hperforms : Performs env masterKey event w w') :
    (d.step env event).Shows env masterKey w' := by
  cases hperforms with
  | createKey rng now keyId w hcut =>
    exact h.call henv htotal hcut _ (KeyManager.createKey_final _ w)
  | rotateKey rng now keyId w hcut =>
    exact h.call henv htotal hcut _ (KeyManager.rotateKeyWithBackup_final _ w)
  | deactivateKey keyId w hcut =>
    exact h.call henv htotal hcut w.drawn (KeyManager.deactivateKey_final _ w)
  | importKey engine encryptedData hmasterKey =>
    rw [← hmasterKey] at h ⊢
    exact h.call henv htotal .written engine.world.drawn (KeyManager.importKey_world engine _)
  | reopen => exact h.reopen

end KeyDirectory

end VedDb
