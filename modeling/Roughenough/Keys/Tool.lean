/-
# `Roughenough.Keys.Tool` — the commands of the key tool

`bin/keys.rs`.  A command opens its input file, creates its output file and calls
a handler, which writes once, at its end:

    generate  -o FILE -k KEY, or -s SECRET      the JSON of a new envelope
    seal      -i SEED -o FILE -k KEY            the JSON of an envelope
    open      -i ENVELOPE -o FILE -k KEY        a seed in hex
    store     -i SEED -o FILE -s SECRET         the JSON of an envelope, a line feed
    get       -i TEXT -o FILE                   a seed in hex

Output files are created with `create_new`: one that exists stays as it is, and the
command ends.  So a file means the same however many commands come after it, and
what a command reads can be told from the command that wrote it.
-/
import Roughenough.Keys.Loading

namespace Roughenough.Keys

open Roughenough.Base Roughenough.Common Roughenough.Server

/-! ## The handlers -/

/-- A build of the tool and the services around it. -/
structure Env where
  aead : Aead
  cloud : Cloud
  readers : Readers
  json : Json
  decoders : Decoders
  debug : Bool
  features : Protection → Bool

/-- The random values of one command. -/
structure Luck where
  seed : Seed
  draws : Draws

/-- What a handler has written, and the secret managers after it. -/
abbrev Effect := Call (Bytes × Vault)

section Handlers

variable (env : Env) (luck : Luck)

/-- The three handlers that end in `try_store_seed`: an error is logged and nothing is
written. -/
def storeAndWrite (seed : Seed) (resource : List Char) (lineEnd : Bytes) (vault : Vault) :
    Effect :=
  match tryStoreSeed env.aead env.cloud luck.draws env.features seed resource vault with
  | .ok (envelope, vault') => .ok (jsonOf env.json envelope ++ lineEnd, vault')
  | .err _ => .ok ([], vault)
  | .panic => .panic

def handleGenerate (key secret : Option (List Char)) (vault : Vault) : Effect :=
  match key.or secret with
  | none => .ok ([], vault)
  | some resource => storeAndWrite env luck luck.seed resource [] vault

/-- What `handle_seal` and `handle_store` share. -/
def handleSeedFile (input : Bytes) (resource : List Char) (lineEnd : Bytes) (vault : Vault) :
    Effect :=
  if input.length ≠ 32 then .ok ([], vault)
  else do
    let seed ← seedNew input
    storeAndWrite env luck seed resource lineEnd vault

def handleSeal (input : Bytes) (key : List Char) (vault : Vault) : Effect :=
  handleSeedFile env luck input key [] vault

def handleStore (input : Bytes) (secret : List Char) (vault : Vault) : Effect :=
  handleSeedFile env luck input secret [0x0a] vault

/-- A seed as it is printed. -/
def hexLine (seed : Seed) : Bytes := Text.utf8 (asHex seed.bytes) ++ [0x0a]

/-- A block of `handle_open`: the KMS was compiled in, and the key ID is one of its own. -/
def openWith (method : Protection) (decrypt : SeedEnvelope → Call Seed) (envelope : SeedEnvelope)
    (seed : Seed) : Call Seed :=
  if env.features method = true ∧ method.prefixOf <+: envelope.keyId then decrypt envelope
  else .ok seed

/-- The seed starts as a random one. -/
def handleOpen (input : Bytes) (key : Option (List Char)) (vault : Vault) : Effect := do
  let parsed ← (envelopeFromSlice env.json env.decoders input).expect
  let envelope : SeedEnvelope := { parsed with keyId := key.getD parsed.keyId }
  let seed ← openWith env .gcpKms (gcpDecryptSeed env.aead env.readers env.debug) envelope luck.seed
  let seed ← openWith env .awsKms (awsDecryptSeed env.aead env.readers env.debug) envelope seed
  if env.features .gcpKms = false ∧ env.features .awsKms = false then pure ([], vault)
  else pure (hexLine seed, vault)

def handleGet (input : Bytes) (vault : Vault) : Effect := do
  let value ← Outcome.orPanic (Text.fromUtf8 input)
  match tryLoadSeed env.aead env.readers env.json env.decoders env.debug env.features value with
  | .ok seed => .ok (hexLine seed, vault)
  | .err _ => .ok ([], vault)
  | .panic => .panic

end Handlers

/-! ## The commands -/

abbrev Path := List Char

inductive Command where
  | generate (output : Option Path) (key secret : Option (List Char))
  | sealSeed (input : Path) (output : Option Path) (key : List Char)
  | openSeed (input : Path) (output : Option Path) (key : Option (List Char))
  | storeSeed (input : Path) (output : Option Path) (secret : List Char)
  | getSeed (input : Path) (output : Option Path)

namespace Command

/-- The conflicts that the argument parser reports. -/
def parses : Command → Bool
  | generate output key secret => !(secret.isSome && (output.isSome || key.isSome))
  | _ => true

def input : Command → Option Path
  | generate _ _ _ => none
  | sealSeed input _ _ => some input
  | openSeed input _ _ => some input
  | storeSeed input _ _ => some input
  | getSeed input _ => some input

def output : Command → Option Path
  | generate output _ _ => output
  | sealSeed _ output _ => output
  | openSeed _ output _ => output
  | storeSeed _ output _ => output
  | getSeed _ output => output

def handle (env : Env) (luck : Luck) (input : Bytes) (vault : Vault) : Command → Effect
  | generate _ key secret => handleGenerate env luck key secret vault
  | sealSeed _ _ key => handleSeal env luck input key vault
  | openSeed _ _ key => handleOpen env luck input key vault
  | storeSeed _ _ secret => handleStore env luck input secret vault
  | getSeed _ _ => handleGet env input vault

end Command

/-- The files and the secret managers. -/
structure World where
  files : Path → Option Bytes
  vault : Vault

namespace World

/-- `infile_from_arg`; `generate` has no input. -/
def infile (w : World) : Option Path → Option Bytes
  | some path => w.files path
  | none => some []

def write (w : World) (path : Path) (bytes : Bytes) : World :=
  { w with files := fun p => if p = path then some bytes else w.files p }

/-- `main`, and what went to the standard output.  A handler that panics leaves the file it was
to write empty. -/
def step (env : Env) (w : World) (luck : Luck) (c : Command) : World × Bytes :=
  if c.parses = false then (w, [])
  else match w.infile c.input with
    | none => (w, [])
    | some input =>
        match c.output with
        | none =>
            match c.handle env luck input w.vault with
            | .ok (bytes, vault) => ({ w with vault := vault }, bytes)
            | _ => (w, [])
        | some path =>
            if (w.files path).isSome then (w, [])
            else match c.handle env luck input w.vault with
              | .ok (bytes, vault) => ({ w with vault := vault }.write path bytes, [])
              | _ => (w.write path [], [])

/-- One command after the other, each with a build of its own. -/
def run (w : World) : List (Env × Luck × Command) → World
  | [] => w
  | (env, luck, c) :: later => run (w.step env luck c).1 later

end World

/-! ## Files stay -/

section Files

variable {env : Env} {luck : Luck} {w : World} {c : Command} {path : Path} {bytes : Bytes}

theorem write_files (w : World) (path : Path) (bytes : Bytes) :
    (w.write path bytes).files path = some bytes := if_pos rfl

theorem write_files_of_ne {p : Path} (h : p ≠ path) : (w.write path bytes).files p = w.files p :=
  if_neg h

/-- What a command may do to the files: nothing, or one that was not there is created. -/
theorem step_files_cases (env : Env) (w : World) (luck : Luck) (c : Command) :
    (w.step env luck c).1.files = w.files ∨ ∃ path bytes, c.output = some path ∧
      w.files path = none ∧ (w.step env luck c).1.files = (w.write path bytes).files := by
  unfold World.step
  split
  · exact .inl rfl
  · split
    · exact .inl rfl
    · split
      · split
        · exact .inl rfl
        · exact .inl rfl
      · next path hpath =>
          split
          · exact .inl rfl
          · next hnew =>
              have hnone : w.files path = none := Option.not_isSome_iff_eq_none.mp hnew
              split
              · next bytes vault _ => exact .inr ⟨path, bytes, hpath, hnone, rfl⟩
              · exact .inr ⟨path, [], hpath, hnone, rfl⟩

theorem step_files (h : w.files path = some bytes) :
    (w.step env luck c).1.files path = some bytes := by
  rcases step_files_cases env w luck c with hsame | ⟨path', bytes', -, hnone, hnew⟩
  · rw [hsame, h]
  · have hne : path ≠ path' := by
      rintro rfl
      rw [h] at hnone
      cases hnone
    rw [hnew, write_files_of_ne hne, h]

/-- No session changes a file that is there. -/
theorem run_files (session : List (Env × Luck × Command)) : ∀ w : World,
    w.files path = some bytes → (w.run session).files path = some bytes := by
  induction session with
  | nil => exact fun w h => h
  | cons head later ih =>
      intro w h
      obtain ⟨env, luck, c⟩ := head
      exact ih _ (step_files h)

/-- A file that a command has left with something in it holds what the handler wrote. -/
theorem handled_of_written (hout : c.output = some path) (hfresh : w.files path = none)
    (hwritten : (w.step env luck c).1.files path = some bytes) (hbytes : bytes ≠ []) :
    ∃ input vault, c.parses = true ∧ w.infile c.input = some input ∧
      c.handle env luck input w.vault = .ok (bytes, vault) := by
  unfold World.step at hwritten
  split at hwritten
  · rw [hfresh] at hwritten
    cases hwritten
  · next hparses =>
      split at hwritten
      · rw [hfresh] at hwritten
        cases hwritten
      · next input hinput =>
          rw [hout] at hwritten
          dsimp only at hwritten
          rw [hfresh] at hwritten
          refine ⟨input, ?_⟩
          split at hwritten
          · next h => cases h
          · split at hwritten
            · next written vault hhandle =>
                rw [write_files] at hwritten
                cases hwritten
                exact ⟨vault, by simpa using hparses, hinput, hhandle⟩
            · rw [write_files] at hwritten
              exact absurd (Option.some.inj hwritten).symm hbytes

/-- What a handler has written when it ends, or panics. -/
def written : Effect → Bytes
  | .ok (bytes, _) => bytes
  | _ => []

/-- Reading a file to the standard output. -/
theorem step_read {input : Bytes} (hparses : c.parses = true) (hin : c.input = some path)
    (hout : c.output = none) (hfile : w.files path = some input) :
    (w.step env luck c).2 = written (c.handle env luck input w.vault) := by
  unfold World.step written
  rw [if_neg (by rw [hparses]; decide), hin, hout]
  simp only [World.infile, hfile]
  split
  · rfl
  · rfl

end Files

/-! ## What the handlers write -/

section Written

variable {env : Env} {luck : Luck} {seed : Seed} {resource : List Char} {lineEnd bytes : Bytes}
  {vault vault' : Vault}

theorem storeAndWrite_ok
    (h : storeAndWrite env luck seed resource lineEnd vault = .ok (bytes, vault'))
    (hbytes : bytes ≠ []) : ∃ envelope,
      tryStoreSeed env.aead env.cloud luck.draws env.features seed resource vault =
        .ok (envelope, vault') ∧ bytes = jsonOf env.json envelope ++ lineEnd := by
  unfold storeAndWrite at h
  split at h
  · next envelope vault'' hstore =>
      cases h
      exact ⟨envelope, hstore, rfl⟩
  · cases h
    exact absurd rfl hbytes
  · cases h

theorem handleSeedFile_ok {input : Bytes}
    (h : handleSeedFile env luck input resource lineEnd vault = .ok (bytes, vault'))
    (hbytes : bytes ≠ []) : ∃ seed : Seed, input = seed.bytes ∧
      storeAndWrite env luck seed resource lineEnd vault = .ok (bytes, vault') := by
  unfold handleSeedFile at h
  split at h
  · cases h
    exact absurd rfl hbytes
  · next hlen =>
      obtain ⟨seed, hseed, h⟩ := Outcome.bind_ok_iff.mp h
      unfold seedNew at hseed
      rw [dif_pos (not_not.mp hlen)] at hseed
      cases hseed
      exact ⟨_, rfl, h⟩

/-- The three kinds of text that the tool writes: an envelope, one with a line feed, and a seed
in hex. -/
theorem handle_ok {c : Command} {input : Bytes}
    (h : c.handle env luck input vault = .ok (bytes, vault')) (hbytes : bytes ≠ []) :
    (∃ envelope, bytes = jsonOf env.json envelope) ∨
      (∃ envelope, bytes = jsonOf env.json envelope ++ [0x0a]) ∨ ∃ seed, bytes = hexLine seed := by
  cases c with
  | generate output key secret =>
      change handleGenerate env luck key secret vault = _ at h
      unfold handleGenerate at h
      split at h
      · cases h
        exact absurd rfl hbytes
      · obtain ⟨envelope, -, hjson⟩ := storeAndWrite_ok h hbytes
        rw [List.append_nil] at hjson
        exact .inl ⟨envelope, hjson⟩
  | sealSeed input output key =>
      obtain ⟨seed, -, h⟩ := handleSeedFile_ok h hbytes
      obtain ⟨envelope, -, hjson⟩ := storeAndWrite_ok h hbytes
      rw [List.append_nil] at hjson
      exact .inl ⟨envelope, hjson⟩
  | storeSeed input output secret =>
      obtain ⟨seed, -, h⟩ := handleSeedFile_ok h hbytes
      obtain ⟨envelope, -, hjson⟩ := storeAndWrite_ok h hbytes
      exact .inr (.inl ⟨envelope, hjson⟩)
  | openSeed input output key =>
      change handleOpen env luck _ key vault = _ at h
      unfold handleOpen at h
      obtain ⟨envelope, -, h⟩ := Outcome.bind_ok_iff.mp h
      dsimp only at h
      obtain ⟨_, -, h⟩ := Outcome.bind_ok_iff.mp h
      obtain ⟨seed, -, h⟩ := Outcome.bind_ok_iff.mp h
      split at h
      · cases h
        exact absurd rfl hbytes
      · cases h
        exact .inr (.inr ⟨seed, rfl⟩)
  | getSeed input output =>
      change handleGet env _ vault = _ at h
      unfold handleGet at h
      obtain ⟨value, -, h⟩ := Outcome.bind_ok_iff.mp h
      split at h
      · next seed _ =>
          cases h
          exact .inr (.inr ⟨seed, rfl⟩)
      · cases h
        exact absurd rfl hbytes
      · cases h

end Written

/-! ## What `get` reads -/

section Get

variable {env : Env} {vault : Vault}

/-- A text without a prefix, with a character of no encoding. -/
theorem handleGet_foreign (hd : Strict env.decoders) {text : List Char} {c : Char}
    (hstart : Protection.fromPrefix text = none) (hc : c ∈ text) (h : c ∉ Encoding.alphabets) :
    handleGet env (Text.utf8 text) vault = .ok ([], vault) := by
  obtain ⟨e, hdecode⟩ := tryDecode_err hd hc h
  have hload : tryLoadSeed env.aead env.readers env.json env.decoders env.debug env.features text =
      .err (.decodeError e) := by
    unfold tryLoadSeed
    rw [hstart]
    show tryLoadPlain env.decoders text = _
    unfold tryLoadPlain
    rw [hdecode]
    rfl
  unfold handleGet
  rw [Text.fromUtf8_utf8]
  show (match tryLoadSeed env.aead env.readers env.json env.decoders env.debug env.features text with
    | .ok seed => Outcome.ok (hexLine seed, vault)
    | .err _ => .ok ([], vault)
    | .panic => .panic) = _
  rw [hload]

theorem fromPrefix_brace (later : List Char) :
    Protection.fromPrefix ('\x7b' :: later) = none := by
  cases hstart : Protection.fromPrefix ('\x7b' :: later) with
  | none => rfl
  | some method =>
      obtain ⟨value, hvalue⟩ := exists_append_of_fromPrefix hstart
      have hhead : some '\x7b' = method.prefixOf.head? :=
        (congrArg List.head? hvalue).trans (by cases method <;> rfl)
      revert hhead
      cases method <;> decide

theorem handleGet_json (hd : Strict env.decoders) {json : Json} (hjson : json.Lawful)
    (envelope : SeedEnvelope) (lineEnd : List Char) (vault : Vault) :
    handleGet env (jsonOf json envelope ++ Text.utf8 lineEnd) vault = .ok ([], vault) := by
  obtain ⟨later, hlater⟩ := hjson.object envelope.serialize (List.cons_ne_nil _ _)
  have hbytes : jsonOf json envelope ++ Text.utf8 lineEnd =
      Text.utf8 ('\x7b' :: '\n' :: (later ++ lineEnd)) := by
    unfold jsonOf
    rw [hlater, ← Text.utf8_append]
    rfl
  rw [hbytes]
  exact handleGet_foreign hd (fromPrefix_brace _) List.mem_cons_self (by decide)

theorem handleGet_hexLine (hd : Strict env.decoders) (seed : Seed) :
    handleGet env (hexLine seed) vault = .ok ([], vault) := by
  have hbytes : hexLine seed = Text.utf8 (asHex seed.bytes ++ ['\n']) := by
    rw [Text.utf8_append]
    rfl
  have hcolon : ':' ∉ asHex seed.bytes ++ ['\n'] := by
    rw [List.mem_append, not_or]
    exact ⟨colon_not_mem .hexLower seed.bytes, by decide⟩
  rw [hbytes]
  exact handleGet_foreign hd (fromPrefix_of_colon hcolon)
    (List.mem_append_right _ List.mem_cons_self) (by decide)

end Get

/-! ## What `open` reads -/

section Open

variable {env : Env} {luck : Luck} {seed : Seed} {envelope : SeedEnvelope} {vault : Vault}

/-- The key ID of one method is no key ID of another. -/
theorem openWith_other {method other : Protection} (hne : other ≠ method) {id : List Char}
    (hid : envelope.keyId = method.prefixOf ++ id) (decrypt : SeedEnvelope → Call Seed) :
    openWith env other decrypt envelope seed = .ok seed := by
  refine if_neg ?_
  rintro ⟨-, hstart⟩
  obtain ⟨value, hvalue⟩ := hstart
  have hfound := fromPrefix_append other value
  rw [hvalue, hid, fromPrefix_append] at hfound
  exact hne (Option.some.inj hfound).symm

theorem openWith_own {method : Protection} {id : List Char}
    (hid : envelope.keyId = method.prefixOf ++ id) {decrypt : SeedEnvelope → Call Seed}
    {sealed : Seed} (hdecrypt : decrypt envelope = .ok sealed) :
    openWith env method decrypt envelope seed =
      .ok (if env.features method = true then sealed else seed) := by
  unfold openWith
  by_cases hfeature : env.features method = true
  · rw [if_pos ⟨hfeature, hid ▸ List.prefix_append _ _⟩, if_pos hfeature, hdecrypt]
  · rw [if_neg (fun h => hfeature h.1), if_neg hfeature]

/-- What `open` prints for an envelope of a KMS: the seed, if the build has that KMS; else the
random seed it started with, if the build has the other one. -/
def printedBy (features : Protection → Bool) (method : Protection) (sealed random : Seed) :
    Bytes :=
  if features .gcpKms = false ∧ features .awsKms = false then []
  else hexLine (if features method = true then sealed else random)

structure Env.Lawful (env : Env) : Prop where
  ideal : env.aead.Ideal
  seals : env.cloud.Seals
  opens : env.readers.Opens env.cloud
  json : env.json.Lawful
  strict : Strict env.decoders

theorem handleOpen_sealed (henv : env.Lawful) {method : Protection} (hkms : method.isKms = true)
    (hstands : StandsFor env.aead env.readers env.decoders method envelope seed)
    (hseedCt : envelope.seedCt ≠ []) (hdekCt : envelope.dekCt ≠ []) :
    handleOpen env luck (jsonOf env.json envelope) none vault =
      .ok (printedBy env.features method seed luck.seed, vault) := by
  have hread : envelopeFromSlice env.json env.decoders (jsonOf env.json envelope) =
      .ok envelope := by
    rw [envelopeFromSlice_serialize henv.json henv.strict, if_neg hseedCt, if_neg hdekCt]
  have hlast : ∀ sealed : Seed, (if env.features .gcpKms = false ∧ env.features .awsKms = false
      then pure ([], vault) else pure (hexLine sealed, vault) : Effect) =
        .ok (if env.features .gcpKms = false ∧ env.features .awsKms = false then []
          else hexLine sealed, vault) := by
    intro sealed
    split
    · rfl
    · rfl
  obtain ⟨id, hid, hservice⟩ := hstands
  unfold handleOpen printedBy
  rw [hread]
  show openWith env .gcpKms _ envelope luck.seed >>= _ = _
  cases method with
  | plain => cases hkms
  | awsSecretManager => cases hkms
  | gcpSecretManager => cases hkms
  | awsKms =>
      have hdecrypt : awsDecryptSeed env.aead env.readers env.debug envelope = .ok seed :=
        (decryptSeed_ok_iff henv.ideal).mpr ⟨id, hid, hservice⟩
      rw [openWith_other (by decide) hid, Outcome.ok_bind]
      show openWith env .awsKms _ envelope luck.seed >>= _ = _
      rw [openWith_own hid hdecrypt, Outcome.ok_bind]
      exact hlast _
  | gcpKms =>
      have hdecrypt : gcpDecryptSeed env.aead env.readers env.debug envelope = .ok seed :=
        (decryptSeed_ok_iff henv.ideal).mpr ⟨id, hid, hservice⟩
      rw [openWith_own hid hdecrypt, Outcome.ok_bind]
      show openWith env .awsKms _ envelope _ >>= _ = _
      rw [openWith_other (by decide) hid, Outcome.ok_bind]
      exact hlast _

end Open

/-! ## Sessions -/

/-- The commands that seal a seed into a file, with the key and the seed. -/
inductive Seals (w : World) (luck : Luck) : Command → Path → List Char → Seed → Prop
  | generated (path : Path) (key : List Char) :
      Seals w luck (.generate (some path) (some key) none) path key luck.seed
  | sealed (input path : Path) (key : List Char) (seed : Seed) :
      w.files input = some seed.bytes →
      Seals w luck (.sealSeed input (some path) key) path key seed

theorem Seals.output {w : World} {luck : Luck} {c : Command} {path : Path} {key : List Char}
    {seed : Seed} (h : Seals w luck c path key seed) : c.output = some path := by
  cases h with
  | generated path key => rfl
  | sealed input path key seed hseed => rfl

theorem Seals.stored {env : Env} {w : World} {luck : Luck} {c : Command} {path : Path}
    {key : List Char} {seed : Seed} (h : Seals w luck c path key seed) {input bytes : Bytes}
    {vault : Vault} (hinput : w.infile c.input = some input)
    (hhandle : c.handle env luck input w.vault = .ok (bytes, vault)) (hbytes : bytes ≠ []) :
    ∃ envelope, tryStoreSeed env.aead env.cloud luck.draws env.features seed key w.vault =
      .ok (envelope, vault) ∧ bytes = jsonOf env.json envelope := by
  cases h with
  | generated path key =>
      obtain ⟨envelope, hstore, hjson⟩ := storeAndWrite_ok hhandle hbytes
      rw [List.append_nil] at hjson
      exact ⟨envelope, hstore, hjson⟩
  | sealed file path key seed hseed =>
      obtain ⟨seed', hseed', hwrite⟩ := handleSeedFile_ok hhandle hbytes
      have hsame : w.files file = some input := hinput
      rw [hseed, hseed'] at hsame
      obtain rfl : seed = seed' := Octets.ext (Option.some.inj hsame)
      obtain ⟨envelope, hstore, hjson⟩ := storeAndWrite_ok hwrite hbytes
      rw [List.append_nil] at hjson
      exact ⟨envelope, hstore, hjson⟩

/-- Once a file holds a sealed seed, whatever commands of whatever builds come after it, `open`
prints the seed if its build has the KMS of the key.  If the build has only the other KMS it
prints a seed that it has just drawn, and does not say so. -/
theorem sealed_file_opens (env : Env) (henv : env.Lawful) (w : World) (luck : Luck) (c : Command)
    (path : Path) (key : List Char) (seed : Seed) (hseals : Seals w luck c path key seed)
    (hkms : NamesKms key) (hfresh : w.files path = none) (bytes : Bytes) (hbytes : bytes ≠ [])
    (hwritten : (w.step env luck c).1.files path = some bytes)
    (session : List (Env × Luck × Command)) (build : Protection → Bool) (luck' : Luck) :
    ∃ method, Protection.fromPrefix key = some method ∧
      (((w.step env luck c).1.run session).step { env with features := build } luck'
        (.openSeed path none none)).2 = printedBy build method seed luck'.seed := by
  obtain ⟨input, vault, -, hinput, hhandle⟩ :=
    handled_of_written hseals.output hfresh hwritten hbytes
  obtain ⟨envelope, hstore, rfl⟩ := hseals.stored hinput hhandle hbytes
  obtain ⟨method, id, hmethod, hstored⟩ := tryStoreSeed_ok hstore
  obtain ⟨method', hmethod', hkms⟩ := hkms
  obtain rfl : method = method' := Option.some.inj (hmethod.symm.trans hmethod')
  refine ⟨method, hmethod, ?_⟩
  have hfile := run_files session _ hwritten
  obtain ⟨hstands, -⟩ := standsFor_of_store henv.ideal henv.opens hkms hstored
  have hfull : envelope.seedCt ≠ [] ∧ envelope.dekCt ≠ [] := by
    rcases tryStore_ok henv.seals hstored with ⟨-, hfull⟩ | ⟨hsecret, -⟩
    · exact hfull
    · rw [Protection.not_secretManager_of_kms hkms] at hsecret
      cases hsecret
  have henv' : Env.Lawful { env with features := build } :=
    ⟨henv.ideal, henv.seals, henv.opens, henv.json, henv.strict⟩
  rw [step_read rfl rfl rfl hfile]
  show written (handleOpen _ luck' (jsonOf env.json envelope) none _) = _
  rw [handleOpen_sealed henv' hkms hstands hfull.1 hfull.2]
  rfl

/-! ### A session -/

def sampleEnv : Env :=
  ⟨clearAead, sampleCloud, sampleReaders, sampleJson, canonical, true, fun _ => true⟩

theorem sampleEnv_lawful : sampleEnv.Lawful :=
  ⟨clearAead_ideal, sampleCloud_seals, sampleReaders_opens, sampleJson_lawful, canonical_strict⟩

def sampleLuck : Luck := ⟨Octets.fill 32 9, sampleDraws⟩

/-- A directory with a seed in the file `s`. -/
def sampleWorld : World :=
  ⟨fun p => if p = ['s'] then some (Octets.fill 32 5).bytes else none, []⟩

/-- Sealing `s` into the file `f`. -/
def sampleSeal : Command :=
  .sealSeed ['s'] (some ['f']) "aws-kms://arn:aws:kms:us-east-2:1:key/k".toList

theorem sampleSeal_written : ∃ bytes, bytes ≠ [] ∧
    (sampleWorld.step sampleEnv sampleLuck sampleSeal).1.files ['f'] = some bytes := by
  have hsome : ((sampleWorld.step sampleEnv sampleLuck sampleSeal).1.files ['f']).isSome = true := by
    decide +kernel
  have hfull : (sampleWorld.step sampleEnv sampleLuck sampleSeal).1.files ['f'] ≠ some [] := by
    decide +kernel
  obtain ⟨bytes, hbytes⟩ := Option.isSome_iff_exists.mp hsome
  refine ⟨bytes, ?_, hbytes⟩
  rintro rfl
  exact hfull hbytes

/-- Built for AWS `open` prints the seed of `s`; built for GCP it prints one of its own. -/
theorem sealed_file_opens_twice :
    (((sampleWorld.step sampleEnv sampleLuck sampleSeal).1.run
      [(sampleEnv, sampleLuck, sampleSeal)]).step
        { sampleEnv with features := fun method => method = .awsKms } sampleLuck
        (.openSeed ['f'] none none)).2 = hexLine (Octets.fill 32 5) ∧
    (((sampleWorld.step sampleEnv sampleLuck sampleSeal).1.run
      [(sampleEnv, sampleLuck, sampleSeal)]).step
        { sampleEnv with features := fun method => method = .gcpKms } sampleLuck
        (.openSeed ['f'] none none)).2 = hexLine (Octets.fill 32 9) := by
  obtain ⟨bytes, hbytes, hwritten⟩ := sampleSeal_written
  have hopens := fun build => sealed_file_opens sampleEnv sampleEnv_lawful sampleWorld sampleLuck
    sampleSeal ['f'] _ (Octets.fill 32 5) (.sealed ['s'] ['f'] _ _ rfl) ⟨.awsKms, rfl, rfl⟩ rfl
    bytes hbytes hwritten [(sampleEnv, sampleLuck, sampleSeal)] build sampleLuck
  constructor
  · obtain ⟨method, hmethod, hprinted⟩ := hopens fun method => method = .awsKms
    obtain rfl : method = .awsKms := (Option.some.inj hmethod).symm
    exact hprinted
  · obtain ⟨method, hmethod, hprinted⟩ := hopens fun method => method = .gcpKms
    obtain rfl : method = .awsKms := (Option.some.inj hmethod).symm
    exact hprinted

/-- No file that the tool has written is one that `get` reads: not what `store` leaves for it,
and not the seed that `open` or `get` itself has printed into a file. -/
theorem get_reads_no_output (env env' : Env) (hjson : env.json.Lawful)
    (hd : Strict env'.decoders) (w : World) (luck luck' : Luck) (c : Command) (path : Path)
    (hout : c.output = some path) (hfresh : w.files path = none) (bytes : Bytes)
    (hbytes : bytes ≠ []) (hwritten : (w.step env luck c).1.files path = some bytes)
    (session : List (Env × Luck × Command)) :
    (((w.step env luck c).1.run session).step env' luck' (.getSeed path none)).2 = [] := by
  obtain ⟨input, vault, -, -, hhandle⟩ := handled_of_written hout hfresh hwritten hbytes
  have hfile := run_files session _ hwritten
  rw [step_read rfl rfl rfl hfile]
  show written (handleGet env' bytes _) = []
  rcases handle_ok hhandle hbytes with ⟨envelope, rfl⟩ | ⟨envelope, rfl⟩ | ⟨seed, rfl⟩
  · have hget := handleGet_json hd hjson envelope []
    simp only [show Text.utf8 [] = [] from rfl, List.append_nil] at hget
    rw [hget]
    rfl
  · have hget := handleGet_json hd hjson envelope ['\n']
    simp only [show Text.utf8 ['\n'] = [0x0a] by decide] at hget
    rw [hget]
    rfl
  · rw [handleGet_hexLine hd]
    rfl

theorem get_reads_no_output_sealed :
    (((sampleWorld.step sampleEnv sampleLuck sampleSeal).1.run []).step sampleEnv sampleLuck
      (.getSeed ['f'] none)).2 = [] := by
  obtain ⟨bytes, hbytes, hwritten⟩ := sampleSeal_written
  exact get_reads_no_output sampleEnv sampleEnv sampleJson_lawful canonical_strict sampleWorld
    sampleLuck sampleLuck sampleSeal ['f'] rfl rfl bytes hbytes hwritten []

end Roughenough.Keys
