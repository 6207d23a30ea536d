import Attestation.Gadget.Check
import Attestation.Table
import Attestation.Text.Replace

/-!
# How gadgets are written

A gadget is written as a line of words with holes for its variables. The template shows the holes by
name, as `%(left)`; which variable a hole is for is kept apart from it, by name. A line is filled
hole by hole: the name of each is replaced wherever it occurs in the line so far.
-/

namespace Attestation

open Text

/-- A hole, as a template shows it. -/
def placeholder (name : String) : String :=
  "%(" ++ name ++ ")"

/-- A line with holes, and the variables that are bound to their names. -/
structure Format where
  template : String
  bindings : Table Variable
  deriving DecidableEq, Repr

namespace Format

/-- A line whose holes are for no variables yet. -/
def ofTemplate (template : String) : Format :=
  ⟨template, []⟩

/-- Goes on with the line by a text. -/
def write (format : Format) (text : String) : Format :=
  { format with template := format.template ++ text }

/-- Binds a variable to the name of a hole. -/
def bind (format : Format) (name : String) (v : Variable) : Format :=
  { format with bindings := format.bindings.insert name v }

end Format

namespace Membership

/-- Adds a hole for the element at a position, behind a blank. -/
def addElement (format : Format) (element : Variable × Nat) : Format :=
  let name := elementName element.2
  (format.write (" " ++ placeholder name)).bind name element.1

def format (g : Membership) : Format :=
  let start := (Format.ofTemplate "SET_MEMBERSHIP %(member)").bind "member" g.member
  g.set.zipIdx.foldl addElement start

end Membership

namespace MerkleTree

/-- Adds a tree in parentheses, with a hole for each leaf. The number is that of the leaves before
it, and then of those with its own. -/
def addTree : Tree Variable → Format × Nat → Format × Nat
  | .leaf v, (format, position) =>
    let name := leafName position
    ((format.write (placeholder name)).bind name v, position + 1)
  | .branch left right, (format, position) =>
    let (format, position) := addTree left (format.write "(", position)
    let (format, position) := addTree right (format.write ", ", position)
    (format.write ")", position)

def format (g : MerkleTree) : Format :=
  let start := (Format.ofTemplate "MERKLE_TREE %(root) ").bind "root" g.root
  (addTree g.tree (start, 0)).1

end MerkleTree

namespace Gadget

/-- How a gadget is written. -/
def format : Gadget → Format
  | equality g =>
    Format.ofTemplate "EQUALS %(left) %(right)" |>.bind "left" g.left |>.bind "right" g.right
  | inequality g =>
    Format.ofTemplate "NOT_EQUALS %(left) %(right)" |>.bind "left" g.left |>.bind "right" g.right
  | bounds g =>
    Format.ofTemplate "BOUND %(value) %(min) %(max)" |>.bind "value" g.value |>.bind "min" g.min
      |>.bind "max" g.max
  | membership g => g.format
  | mimcHash g =>
    Format.ofTemplate "MIMC_HASH %(image) %(preimage)" |>.bind "image" g.image
      |>.bind "preimage" g.preimage
  | merkleTree g => g.format

/-- The line with its holes shown by name. -/
def template (g : Gadget) : String :=
  g.format.template

/-- The variables of the holes by name. -/
def bindings (g : Gadget) : Table Variable :=
  g.format.bindings

/-- Replaces the names of holes in a line, one after the other. -/
def fillHoles (line : String) (texts : List (String × String)) : String :=
  texts.foldl (fun line (name, text) => replaceAll (placeholder name) text line) line

/-- The gadget with its variables as messages may show them. -/
def text (g : Gadget) : String :=
  fillHoles g.template (g.bindings.map fun (name, v) => (name, v.describe))

end Gadget

end Attestation
