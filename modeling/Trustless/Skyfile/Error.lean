import Trustless.Link.Bitfield
import Trustless.Merkle.Error
import Trustless.Text

/-!
# What can be wrong with a skyfile

The causes for which a path, metadata, a layout or a whole file is refused, and the wording of each.
-/

namespace Trustless

/-- Why a path is not a clean relative path. -/
inductive PathFault
  | empty
  | leadingSlash
  | emptyElement
  | dotElement
deriving DecidableEq, Repr

/-- The wording of a fault in a path. -/
def PathFault.message : PathFault → String
  | empty => "path is empty"
  | leadingSlash => "path cannot start with /"
  | emptyElement => "path has an empty element"
  | dotElement => "path cannot contain . or .. elements"

/-- Why metadata is refused. -/
inductive MetadataFault
  | notAnObject
  | noFilename
  | filenameNotString
  | bothDefaultPaths
  | defaultPathAlone
deriving DecidableEq, Repr

/-- The wording of a fault in metadata. -/
def MetadataFault.message : MetadataFault → String
  | notAnObject => "metadata is not an object"
  | noFilename => "Filename does not exist"
  | filenameNotString => "Filename is not a string"
  | bothDefaultPaths => "cannot set both DefaultPath and DisableDefaultPath"
  | defaultPathAlone => "cannot set a DefaultPath without subfiles"

/-- Why a skyfile is refused. -/
inductive SkyfileError
  | layoutTooShort (size : Nat)
  | invalidPath (path : String) (fault : PathFault)
  | invalidMetadata (fault : MetadataFault)
  | unsupported (feature : String)
  | tooLarge (size : Nat)
  | link (source : LinkError)
  | merkle (source : MerkleError)
deriving DecidableEq, Repr

/-- The wording of a skyfile error. -/
def SkyfileError.message : SkyfileError → String
  | layoutTooShort size => s!"skyfile layout needs 99 bytes, got {size}"
  | invalidPath path fault => s!"invalid skyfile path {Text.quoted path}: {fault.message}"
  | invalidMetadata fault => s!"invalid skyfile metadata: {fault.message}"
  | unsupported feature => s!"{feature} is not supported"
  | tooLarge size => s!"skyfile is {size} bytes, which does not fit in a single sector"
  | link source => source.message
  | merkle source => source.message

end Trustless
