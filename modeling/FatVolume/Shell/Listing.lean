import FatVolume.Session.OpenTable
import FatVolume.Text.Numeral

/-!
# Listings

The lines in which a shell shows directory entries and open files.
-/

namespace FatVolume.Shell

/-- The name of an entry; a directory's is bold and green. -/
def displayName (record : Record) : String :=
  if record.isDirectory then s!"\x1b[1m\x1b[92m{record.fullName}\x1b[39m\x1b[0m"
  else record.fullName

/-- The line of an entry in a short listing is its name, that of a directory the names of
its entries. -/
def shortLine (entries : List Entry) : String :=
  String.intercalate "  " (entries.map fun entry => displayName entry.record)

/-- The line of an entry in a long listing: kind, first block, length, date and time of
creation, and name. -/
def longLine (record : Record) : String :=
  String.intercalate "  " [
    if record.isDirectory then "d" else "-",
    Text.rightAligned 5 (toString record.first.toNat),
    Text.rightAligned 8 (toString record.length.toNat),
    record.created.date.render,
    record.created.time.render,
    displayName record]

/-- A line of the listing of open files with the given columns. -/
def openColumns (handle cursor length dirty path : String) : String :=
  String.intercalate "  " [
    Text.rightAligned 2 handle,
    Text.rightAligned 6 cursor,
    Text.rightAligned 8 length,
    Text.leftAligned 5 dirty,
    path]

/-- The heading of the listing of open files. -/
def openHeading : String :=
  openColumns "fd" "cursor" "length" "dirty" "path"

/-- The line of an open file. -/
def openLine (handle : Handle) (file : OpenFile) : String :=
  openColumns (toString handle) (toString file.cursor) (toString file.record.length.toNat)
    (if file.dirty then "true" else "false") file.path

end FatVolume.Shell
