import ChannelConfig.Error
import ChannelConfig.Text.Base64

/-!
# Sections of PEM files

A PEM file holds sections between lines that name the kind of each section. What stands outside of
sections does not count, nor do sections of kinds that are not known.
-/

set_option autoImplicit false

namespace ChannelConfig.Pem

def beginMark : Bytes := Bytes.ofText "-----BEGIN "
def endMark : Bytes := Bytes.ofText "-----END "
def dashes : Bytes := Bytes.ofText "-----"

def certificateLabel : Bytes := Bytes.ofText "CERTIFICATE"
def revocationListLabel : Bytes := Bytes.ofText "X509 CRL"

def knownLabels : List Bytes :=
  [certificateLabel, revocationListLabel] ++
    ["PUBLIC KEY", "RSA PRIVATE KEY", "PRIVATE KEY", "EC PRIVATE KEY", "CERTIFICATE REQUEST",
      "ECHCONFIG"].map Bytes.ofText

/-- What follows a prefix, if the bytes begin with it. -/
def afterPrefix (start : Bytes) (bs : Bytes) : Option Bytes :=
  if start.isPrefixOf bs then some (bs.drop start.length) else none

/-- The lines of a file. A line feed and a carriage return end a line each. -/
def lines : Bytes → List Bytes
  | [] => [[]]
  | b :: bs =>
    if b = 10 ∨ b = 13 then [] :: lines bs
    else
      match lines bs with
      | line :: rest => (b :: line) :: rest
      | [] => [[b]]

/-- Cuts dashes off the end, also dashes before and after blanks: how many, and what is left of the
last cut on. `none` is left where there is no dash. -/
def cutDashes : (reversed : Bytes) → Nat × Option Bytes
  | [] => (0, none)
  | b :: rest =>
    if b = 45 then
      let (count, left) := cutDashes rest
      (count + 1, some (left.getD rest))
    else if b = 32 then cutDashes rest
    else (0, none)

/-- The label of a line that begins a section, given what follows the mark. -/
def label? (line : Bytes) : Option Bytes :=
  match cutDashes line.reverse with
  | (5, some reversed) => some (reversed.reverse.drop beginMark.length)
  | _ => none

/-- Whether a line ends the section of a label. -/
def endsSection (label line : Bytes) : Bool := (endMark ++ label ++ dashes).isPrefixOf line

/-- A file as far as it has been read: the section that is open, and its text so far. -/
structure State where
  current : Option Bytes := none
  text : Bytes := []

/-- Reads line by line, and gives the labels of the sections of known kinds. -/
def scan : State → List Bytes → Except PemFault (List Bytes)
  | s, [] => if s.current.isSome then .error .malformed else .ok []
  | s, line :: rest =>
    if beginMark.isPrefixOf line then
      match label? line with
      | some label => scan { s with current := some label } rest
      | none => .error .malformed
    else
      match s.current with
      | none => scan s rest
      | some label =>
        if endsSection label line then
          if knownLabels.contains label then
            if Base64.isReadable s.text then (scan {} rest).map (label :: ·) else .error .malformed
          else scan {} rest
        else scan { s with text := s.text ++ line } rest

/-- How many sections of a label a file has. -/
def count (label : Bytes) (file : Bytes) : Except PemFault Nat :=
  (scan {} (lines file)).map fun labels => labels.count label

end ChannelConfig.Pem
