import Datamodel.Config
import Datamodel.Entries
import Datamodel.Files.Access
import Datamodel.Files.Path

/-!
Archives, which keep documents: one of them in memory, the other in a directory, with one file for
each tenant. A tenant's document is stored under the tenant's name, so a name that means something
in a path is refused.
-/

namespace Datamodel

namespace Tenant

/-- The characters that no name contains: the separators of paths, and the character that ends a
path. -/
def isReserved (c : Char) : Bool :=
  c == '/' || c == '\\' || c == '\x00'

/-- Whether a text can be the name of a tenant. -/
def isAccepted (tenant : String) : Bool :=
  tenant != "" && tenant != "." && !Text.contains tenant ".." && !tenant.toList.any isReserved

def check (tenant : String) : Except SchemaError Unit :=
  if isAccepted tenant then .ok () else .error (.invalidTenant tenant)

end Tenant

/-- An archive in memory: the documents by their tenants, in the order in which the tenants came up.
-/
structure MemoryArchive where
  documents : List (String × String) := []
  deriving DecidableEq, Repr

namespace MemoryArchive

def get? (a : MemoryArchive) (tenant : String) : Option String :=
  a.documents.lookup tenant

def tenants (a : MemoryArchive) : List String :=
  a.documents.map (·.1)

def size (a : MemoryArchive) : Nat :=
  a.documents.length

def isEmpty (a : MemoryArchive) : Bool :=
  a.documents.isEmpty

/-- Stores the document of a tenant, and says where: under the tenant's name. -/
def write (a : MemoryArchive) (tenant text : String) :
    Except SchemaError String × MemoryArchive :=
  match Tenant.check tenant with
  | .ok () => (.ok tenant, ⟨Entries.put tenant text a.documents⟩)
  | .error e => (.error e, a)

end MemoryArchive

/-- An archive in a directory: where that is, and the extension of the files in it. -/
structure DirectoryArchive where
  root : String
  extension : String
  deriving DecidableEq, Repr

namespace DirectoryArchive

/-- An extension without the points it starts with. -/
def bareExtension (extension : String) : String :=
  String.ofList (extension.toList.dropWhile (· = '.'))

/-- An archive in a directory. The extension can be given with points in front. -/
def make (root extension : String) : DirectoryArchive :=
  ⟨root, bareExtension extension⟩

def ofSettings (o : OutputSettings) : DirectoryArchive :=
  make o.directory o.extension

/-- The archive that is used if nothing else is asked for. -/
def standard : DirectoryArchive :=
  ofSettings {}

def fileName (a : DirectoryArchive) (tenant : String) : String :=
  if a.extension = "" then tenant else tenant ++ "." ++ a.extension

def pathFor (a : DirectoryArchive) (tenant : String) : Except SchemaError String :=
  match Tenant.check tenant with
  | .ok () => .ok (Path.join a.root (a.fileName tenant))
  | .error e => .error e

/-- Stores the document of a tenant, and says where. The directory is made if it is missing. -/
def write {m : Type → Type} [Monad m] [FileAccess m] (a : DirectoryArchive)
    (tenant text : String) : m (Except SchemaError String) :=
  match a.pathFor tenant with
  | .error e => return .error e
  | .ok path => do
    if !(← FileAccess.makeDirectories a.root) then return .error (.inaccessible a.root)
    if !(← FileAccess.writeText path text) then return .error (.inaccessible path)
    return .ok path

end DirectoryArchive

end Datamodel
