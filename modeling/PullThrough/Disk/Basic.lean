import PullThrough.Bytes
import PullThrough.Disk.Path
/-!
A disk: files and folders by their location. Paths are followed part by part, so that every folder
on the way has to be there.
-/
namespace PullThrough

/-- The names on the way from the root. -/
abbrev Location := List String

/-- What is at a location. -/
inductive Entry where
  | folder
  | file (content : Bytes)
  deriving DecidableEq, Repr

/-- Why an operation on the disk fails. -/
inductive DiskFault where
  | missing
  | notFolder
  | isFolder
  | tooLong
  | badName
  | trouble
  deriving DecidableEq, Repr

/-- A location as the key of its entry. The depth tells most locations apart at once. -/
structure Slot where
  depth : Nat
  names : Location
  deriving DecidableEq, Repr

def Slot.of (l : Location) : Slot := ⟨l.length, l⟩

@[simp] theorem Slot.of_inj {l m : Location} : Slot.of l = Slot.of m ↔ l = m :=
  ⟨congrArg Slot.names, congrArg Slot.of⟩

/-- The entries of a disk. The root is a folder and has no entry; of two entries for one
location the first counts. -/
structure Disk where
  entries : List (Slot × Entry) := []

namespace Disk

/-- What is at a location. -/
def get? (d : Disk) (l : Location) : Option Entry :=
  if l = [] then some .folder else d.entries.lookup (Slot.of l)

/-- The entries of all locations but one. -/
def without (l : Location) (entries : List (Slot × Entry)) : List (Slot × Entry) :=
  let slot := Slot.of l
  entries.filter fun x => x.1 != slot

/-- The disk with another entry at a location. -/
def set (d : Disk) (l : Location) (e : Entry) : Disk := ⟨(Slot.of l, e) :: without l d.entries⟩

/-- The disk with nothing at a location. -/
def erase (d : Disk) (l : Location) : Disk := ⟨without l d.entries⟩

theorem lookup_without_self (entries : List (Slot × Entry)) (l : Location) :
    (without l entries).lookup (Slot.of l) = none := by
  rw [List.lookup_eq_none_iff]
  intro x hx
  have hne : x.1 ≠ Slot.of l := by simpa using (List.mem_filter.1 hx).2
  simpa using hne.symm

theorem lookup_without_of_ne {entries : List (Slot × Entry)} {l m : Location} (h : m ≠ l) :
    (without l entries).lookup (Slot.of m) = entries.lookup (Slot.of m) := by
  induction entries with
  | nil => rfl
  | cons x rest ih =>
    obtain ⟨k, e⟩ := x
    simp only [without] at ih ⊢
    by_cases hk : k = Slot.of l
    · have hne : (Slot.of m == k) = false := by simpa [hk] using h
      rw [List.filter_cons_of_neg (by simp [hk]), List.lookup_cons, hne, ih]
    · rw [List.filter_cons_of_pos (by simpa using hk), List.lookup_cons, List.lookup_cons, ih]

@[simp] theorem get?_root (d : Disk) : d.get? [] = some .folder := by simp [get?]

/-- The root is a folder and stays one. -/
theorem ne_root {d : Disk} {l : Location} (h : d.get? l ≠ some .folder) : l ≠ [] :=
  fun hl => h (hl ▸ d.get?_root)

@[simp] theorem get?_set_self {d : Disk} {l : Location} {e : Entry} (h : l ≠ []) :
    (d.set l e).get? l = some e := by simp [get?, set, h]

theorem get?_set_of_ne {d : Disk} {l m : Location} {e : Entry} (h : m ≠ l) :
    (d.set l e).get? m = d.get? m := by
  have hne : (Slot.of m == Slot.of l) = false := by simpa using h
  simp [get?, set, List.lookup_cons, hne, lookup_without_of_ne h]

@[simp] theorem get?_erase_self {d : Disk} {l : Location} (h : l ≠ []) :
    (d.erase l).get? l = none := by simp [get?, erase, h, lookup_without_self]

theorem get?_erase_of_ne {d : Disk} {l m : Location} (h : m ≠ l) :
    (d.erase l).get? m = d.get? m := by simp [get?, erase, lookup_without_of_ne h]

/-! ## Following paths -/

/-- The longest name of a file or folder, in octets. -/
def maxName : Nat := 255

/-- One part further on from a folder. -/
def enter (d : Disk) (here : Location) (part : String) : Except DiskFault Location :=
  match d.get? here with
  | none => .error .missing
  | some (.file _) => .error .notFolder
  | some .folder =>
    if part = "" ∨ part = "." then .ok here
    else if part = ".." then .ok here.dropLast
    else if part.utf8ByteSize > maxName then .error .tooLong
    else .ok (here ++ [part])

/-- The longest path, in octets. -/
def maxPath : Nat := 4095

/-- The octets of a path, each part with a slash. -/
def pathSize : Path → Nat
  | [] => 0
  | part :: rest => part.utf8ByteSize + 1 + pathSize rest

/-- Whether a path can be followed at all: it must not hold the null character nor be too long. -/
def checkPath (p : Path) : Except DiskFault Unit :=
  if p.any fun part => part.toList.contains '\x00' then .error .badName
  else if pathSize p > maxPath + 1 then .error .tooLong
  else .ok ()

/-- Where a path leads. All of it but its last part has to be there. -/
def locate (d : Disk) (p : Path) : Except DiskFault Location := do
  checkPath p
  p.foldlM d.enter []

/-- What a path leads to. -/
def find (d : Disk) (p : Path) : Except DiskFault Entry := do
  match d.get? (← d.locate p) with
  | some e => .ok e
  | none => .error .missing

/-! ## Operations -/

/-- The content of a file. -/
def read (d : Disk) (p : Path) : Except DiskFault Bytes := do
  match ← d.find p with
  | .file content => .ok content
  | .folder => .error .isFolder

/-- Makes the folders on the way that are not there yet, and stops at the first that cannot be. -/
def makeFoldersFrom : Path → Location → Disk → Except DiskFault Unit × Disk
  | [], _, d => (.ok (), d)
  | part :: rest, here, d =>
    match d.enter here part with
    | .error e => (.error e, d)
    | .ok l =>
      match d.get? l with
      | some .folder => makeFoldersFrom rest l d
      | some (.file _) => (.error .notFolder, d)
      | none => makeFoldersFrom rest l (d.set l .folder)

def makeFolders (d : Disk) (p : Path) : Except DiskFault Unit × Disk :=
  match checkPath p with
  | .ok () => makeFoldersFrom p [] d
  | .error e => (.error e, d)

/-- The disk with an empty file at a path, whatever file was there. -/
def create (d : Disk) (p : Path) : Except DiskFault Disk := do
  let l ← d.locate p
  match d.get? l with
  | some .folder => .error .isFolder
  | _ => .ok (d.set l (.file []))

/-- The disk with more octets at the end of a file. -/
def append (d : Disk) (p : Path) (data : Bytes) : Except DiskFault Disk := do
  let l ← d.locate p
  match d.get? l with
  | some (.file content) => .ok (d.set l (.file (content ++ data)))
  | some .folder => .error .isFolder
  | none => .error .missing

/-- The disk with a file under another path, in place of the file that was there. -/
def rename (d : Disk) (source target : Path) : Except DiskFault Disk := do
  let l ← d.locate source
  let m ← d.locate target
  match d.get? l, d.get? m with
  | some (.file _), some .folder => .error .isFolder
  | some (.file content), _ => .ok ((d.erase l).set m (.file content))
  | some .folder, _ => .error .isFolder
  | none, _ => .error .missing

/-- The disk without a file. -/
def remove (d : Disk) (p : Path) : Except DiskFault Disk := do
  let l ← d.locate p
  match d.get? l with
  | some (.file _) => .ok (d.erase l)
  | some .folder => .error .isFolder
  | none => .error .missing

/-- The disk without what is at a path and below it. -/
def removeTree (d : Disk) (p : Path) : Except DiskFault Disk := do
  let l ← d.locate p
  match d.get? l with
  | some _ => .ok ⟨d.entries.filter fun x => !l.isPrefixOf x.1.names⟩
  | none => .error .missing

/-! ## Views -/

/-- The files below a location, by their names on the way from there. -/
def filesBelow (d : Disk) (l : Location) : List (Location × Bytes) :=
  d.entries.filterMap fun (slot, e) =>
    match e, l.isPrefixOf? slot.names with
    | .file content, some rest => some (rest, content)
    | _, _ => none

/-- The names right below a location. -/
def children (d : Disk) (l : Location) : List String :=
  d.entries.filterMap fun (slot, _) =>
    match l.isPrefixOf? slot.names with
    | some [name] => some name
    | _ => none

end Disk

end PullThrough
