import CMakeLint.Disk.Entry

/-!
Trees in the form of a tape archive: each entry has a header block of 512 bytes with its fields at fixed places, and then its
content, filled up to whole blocks. A block of zeros ends the archive.
-/
namespace CMakeLint.Archive

/-- The size of a block. -/
def blockSize : Nat := 512

/-- A field of a header: its bytes before the first zero. -/
def field (header : List UInt8) (start length : Nat) : List UInt8 :=
  ((header.drop start).take length).takeWhile (· ≠ 0)

/-- Bytes as text; bytes that are not in UTF-8 are taken for a character each. -/
def text (bytes : List UInt8) : Text :=
  match String.fromUTF8? ⟨bytes.toArray⟩ with
  | some s => s.toList
  | none => bytes.map fun b => Char.ofNat b.toNat

/-- A number written in digits below 8; other bytes are passed over. -/
def octal (bytes : List UInt8) : Nat :=
  (bytes.filter fun b => 48 ≤ b ∧ b ≤ 55).foldl (fun n b => 8 * n + (b.toNat - 48)) 0

/-- The name in a header, which may be in two parts. -/
def headerName (header : List UInt8) : Text :=
  match field header 345 155 with
  | [] => text (field header 0 100)
  | first => text first ++ '/' :: text (field header 0 100)

/-- What a header describes, by the character for its type. -/
def kind? (header content : List UInt8) : Option Entry.Kind :=
  match (header.drop 156).head?.map fun b => Char.ofNat b.toNat with
  | some '\x00' => some (.file ⟨content.toArray⟩)
  | some '0' => some (.file ⟨content.toArray⟩)
  | some '2' => some (.link (text (field header 157 100)))
  | some '5' => some .directory
  | some '6' => some .pipe
  | _ => none

/-- The blocks that a content takes. -/
def blocks (size : Nat) : Nat :=
  (size + blockSize - 1) / blockSize

/-- The entries of an archive below a place. A header of type `L` gives the name for the header after it. -/
def entries (above : Place) (longName : Option Text) (bytes : List UInt8) : List Entry :=
  let header := bytes.take blockSize
  if _h : header.length < blockSize ∨ header.all (· = 0) then []
  else
    let size := octal (field header 124 12)
    let content := (bytes.drop blockSize).take size
    let rest := bytes.drop (blockSize + blocks size * blockSize)
    if (header.drop 156).head? = some 76 then entries above (some (text (content.takeWhile (· ≠ 0)))) rest
    else
      let place := ((Path.mk 0 (Path.namesOf (longName.getD (headerName header)))).normal above).names
      match kind? header content with
      | some kind => ⟨place, kind, octal (field header 100 8) % 512 = 0⟩ :: entries above none rest
      | none => entries above none rest
termination_by bytes.length
decreasing_by
  all_goals
    simp only [header, blockSize, List.length_take, not_or] at _h
    simp only [blockSize, List.length_drop]
    omega

/-- The tree of an archive below a place. -/
def tree (above : Place) (bytes : ByteArray) : Node :=
  Node.ofEntries (⟨above, .directory, false⟩ :: entries above none bytes.toList)

end CMakeLint.Archive
