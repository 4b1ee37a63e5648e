import IotcRa8p1.App.Cli
import IotcRa8p1.Lib.Machine
import Mathlib.Logic.Function.Basic

/-!
# The stored configuration (`iotc_config.c`) and the commands that write it

One file a field.  `iotc_config_write` replaces the file, `iotc_config_read` takes at most `size - 1` bytes of
it, `iotc_config_load` wants all five.  What allocation and file system answer to a call is an argument
of it; a file keeps the contents it was written with.

`handle` is the part of `prv_handle` that changes the configuration: `set`, with or without a pasted
PEM, and `erase`.
-/

namespace IotcRa8p1.App.Config

open CString Cli

/-- The names of `prv_path`. -/
inductive Field where
  | env
  | cpid
  | duid
  | cert
  | key
  deriving DecidableEq

/-- `IOTC_CONFIG_*_MAX` of the field: the buffer it is loaded into. -/
def Field.max : Field → ℕ
  | .env => 16
  | .cpid => 64
  | .duid => 64
  | .cert => 4096
  | .key => 4096

/-- The files, and also any other map from fields to values. -/
abbrev Files := Field → Option (List UInt8)

/-! ### `iotc_config_write`, `iotc_config_read`, `iotc_config_erase` -/

/-- How a write goes in the file system; a failing one leaves the file as given. -/
inductive WriteAnswer where
  | initFails
  | openFails (left : Option (List UInt8))
  | writeFails (left : Option (List UInt8))
  | closeFails (left : Option (List UInt8))
  | written
  deriving DecidableEq

/-- `iotc_config_write`: the return value and the files. -/
def iotcConfigWrite (files : Files) (f : Field) (value : List UInt8) : WriteAnswer → ℤ × Files
  | .initFails => (-5, files)
  | .openFails left => (-5, Function.update files f left)
  | .writeFails left => (-5, Function.update files f left)
  | .closeFails left => (-5, Function.update files f left)
  | .written => (0, Function.update files f (some value))

/-- What works of the calls made to load a field. -/
structure ReadAnswer where
  malloc : Bool
  init : Bool
  opens : Bool
  reads : Bool
  deriving DecidableEq

def ReadAnswer.good (io : ReadAnswer) : Bool := io.malloc && io.init && io.opens && io.reads

/-- `iotc_config_read`: the return value, and the buffer when it was written. -/
def iotcConfigRead (files : Files) (f : Field) (size : ℕ) (io : ReadAnswer) : ℤ × List UInt8 :=
  if size < 2 then (-22, [])
  else if io.init = false then (-5, [])
  else
    match files f with
    | none => (-2, [])
    | some contents =>
      if io.opens = false then (-2, [])
      else if io.reads = false then (-5, [])
      else ((contents.take (size - 1)).length, contents.take (size - 1) ++ [0])

/-- `iotc_config_erase`: a file whose removal fails is still there, and that is not reported. -/
def iotcConfigErase (files : Files) (init : Bool) (removed : Field → Bool) : ℤ × Files :=
  if init = false then (-5, files)
  else (0, fun f => if removed f = true then none else files f)

/-! ### `iotc_config_load` -/

/-- `iotc_config_identity_t`: the strings, or NULL. -/
structure Identity where
  env : Option (List UInt8)
  cpid : Option (List UInt8)
  duid : Option (List UInt8)
  certPem : Option (List UInt8)
  keyPem : Option (List UInt8)
  deriving DecidableEq

def Identity.zeroed : Identity := ⟨none, none, none, none, none⟩

def Identity.get (out : Identity) : Field → Option (List UInt8)
  | .env => out.env
  | .cpid => out.cpid
  | .duid => out.duid
  | .cert => out.certPem
  | .key => out.keyPem

/-- `prv_load_field` -/
def prvLoadField (files : Files) (f : Field) (io : ReadAnswer) : Option (List UInt8) :=
  if io.malloc = false then none
  else
    let r := iotcConfigRead files f f.max io
    if r.1 ≤ 0 then none else some (cstr r.2)

/-- `iotc_config_load` -/
def iotcConfigLoad (files : Files) (io : Field → ReadAnswer) : ℤ × Identity :=
  let out : Identity :=
    ⟨prvLoadField files .env (io .env), prvLoadField files .cpid (io .cpid),
      prvLoadField files .duid (io .duid), prvLoadField files .cert (io .cert),
      prvLoadField files .key (io .key)⟩
  if out.env.isSome && out.cpid.isSome && out.duid.isSome && out.certPem.isSome && out.keyPem.isSome
  then (0, out)
  else (-2, .zeroed)

/-! ### `prv_handle` -/

/-- A command line, as far as the configuration is concerned. -/
inductive Command where
  | setValue (f : Field) (value : List UInt8)
  | setPem (f : Field) (label : List UInt8)
  | erase
  | other
  deriving DecidableEq

def setEnv : List UInt8 := ascii ['s', 'e', 't', ' ', 'e', 'n', 'v', ' ']

def setCpid : List UInt8 := ascii ['s', 'e', 't', ' ', 'c', 'p', 'i', 'd', ' ']

def setDuid : List UInt8 := ascii ['s', 'e', 't', ' ', 'd', 'u', 'i', 'd', ' ']

def setCert : List UInt8 := ascii ['s', 'e', 't', ' ', 'c', 'e', 'r', 't']

def setKey : List UInt8 := ascii ['s', 'e', 't', ' ', 'k', 'e', 'y']

def eraseLine : List UInt8 := ascii ['e', 'r', 'a', 's', 'e']

def certificateLabel : List UInt8 := ascii ['C', 'E', 'R', 'T', 'I', 'F', 'I', 'C', 'A', 'T', 'E']

def privateKeyLabel : List UInt8 :=
  ascii ['P', 'R', 'I', 'V', 'A', 'T', 'E', ' ', 'K', 'E', 'Y']

/-- The `strncmp` and `strcmp` chain of `prv_handle`. -/
def command (line : List UInt8) : Command :=
  if startsWith line setEnv = true then .setValue .env (line.drop 8)
  else if startsWith line setCpid = true then .setValue .cpid (line.drop 9)
  else if startsWith line setDuid = true then .setValue .duid (line.drop 9)
  else if line = setCert then .setPem .cert certificateLabel
  else if line = setKey then .setPem .key privateKeyLabel
  else if line = eraseLine then .erase
  else .other

/-- What the file system answers during a command. -/
structure CommandAnswer where
  write : WriteAnswer
  init : Bool
  removed : Field → Bool

/-- What a command does to the configuration. -/
inductive Effect where
  | stored (f : Field) (value : List UInt8) (rc : ℤ) (files : Files)
  | erased (rc : ℤ) (files : Files)
  | nothing

def Effect.store (files : Files) (f : Field) (value : List UInt8) (io : CommandAnswer) : Effect :=
  .stored f value (iotcConfigWrite files f value io.write).1 (iotcConfigWrite files f value io.write).2

/-- `prv_handle` on a line, with the CR latch and the characters behind the line. -/
def prvHandle (files : Files) (r : ReadResult (List UInt8)) (io : CommandAnswer) : Option Effect :=
  match command r.result with
  | .setValue f value => some (.store files f value io)
  | .setPem f label =>
    match prvReadPem label r.latch r.rest with
    | none => none
    | some ⟨.captured pem, _, _⟩ => some (.store files f pem io)
    | some _ => some .nothing
  | .erase =>
    some (.erased (iotcConfigErase files io.init io.removed).1
      (iotcConfigErase files io.init io.removed).2)
  | .other => some .nothing

end IotcRa8p1.App.Config
