/-
# Reshape.Main -- the program

Calls the program as it is described by `Reshape.Command.run` with the files, the clock and the
random numbers of the system.
-/

import Reshape.Command.Perform
import Std.Time.DateTime.Timestamp

namespace Reshape.Command

/-- Look up a file. -/
def readFile (name : String) : IO File := do
  match ← (IO.FS.Handle.mk name .read).toBaseIO with
  | .error _ => return .missing
  | .ok handle =>
    match ← handle.readBinToEnd.toBaseIO with
    | .error _ => return .unreadable
    | .ok bytes =>
      match String.fromUTF8? bytes with
      | some content => return .text content
      | none => return .unreadable

/-- The current time. -/
def currentInstant : IO Calendar.Instant := do
  let nanos := (← Std.Time.Timestamp.now).toNanosecondsSinceUnixEpoch.val
  let perSecond : Int := Calendar.Instant.nanosPerSecond
  return .ofSeconds (nanos / perSecond) (nanos % perSecond).toNat

/-- A random number of 128 bits. -/
def randomNumber : IO Nat := do
  let bytes ← IO.getRandomBytes 16
  return bytes.toList.foldl (fun n b => n * 256 + b.toNat) 0

/-- The world around, with the files of the given names. -/
def currentWorld (names : List String) : IO World := do
  let files ← names.mapM fun name => do return (name, ← readFile name)
  let now ← currentInstant
  let base ← randomNumber
  return {
    file := fun name => (files.lookup name).getD .missing
    creatable := fun _ => true
    now := now
    newId := fun n => idText (base + n) }

/-- Make the file that an outcome asks for. -/
def makeFile (o : Outcome) : IO Bool := do
  match o.written with
  | none => return true
  | some (name, content) =>
    match ← (IO.FS.writeFile name content).toBaseIO with
    | .ok () => return true
    | .error _ => return false

end Reshape.Command

open Reshape Command in
/-- **The program.** -/
def main (args : List String) : IO UInt32 := do
  let world ← currentWorld (filesToRead args)
  let wish := run world args
  let outcome :=
      if ← makeFile wish then wish else run { world with creatable := fun _ => false } args
  IO.print outcome.stdout
  outcome.stderr.forM fun line => IO.eprintln line
  return outcome.code.toUInt32
