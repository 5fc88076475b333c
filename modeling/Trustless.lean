import Trustless.Encoding.Hex
import Trustless.Encoding.Base64
import Trustless.Hash.Blake2b
import Trustless.Hash.Blake3
import Trustless.Hash.Sha512
import Trustless.Json.Value
import Trustless.Key
import Trustless.Link.Basic
import Trustless.Stored
import Trustless.Skyfile.BaseSector
import Trustless.Download
import Trustless.Registry.Derivation
import Trustless.Resolution.Chain
import Trustless.Merkle.InPlace
import Trustless.Merkle.RangeProof
import Trustless.Guarded.Download
import Trustless.Guarded.Link
import Trustless.Portal.Client
import Trustless.CommandLine.Run
import Trustless.Main
import Trustless.Proofs.Bytes
import Trustless.Proofs.Merkle.Forest
import Trustless.Proofs.Merkle.Tiling
import Trustless.Proofs.Merkle.HashTree
import Trustless.Proofs.Merkle.Verification
import Trustless.Proofs.Merkle.Completeness
import Trustless.Proofs.Merkle.Binding
import Trustless.Proofs.Download
import Trustless.Proofs.Json.Token
import Trustless.Proofs.Json.Value
import Trustless.Proofs.Skyfile.BaseSector
import Trustless.Proofs.Upload
import Trustless.Proofs.Skyfile.Commitment
import Trustless.Proofs.Failure
import Trustless.Proofs.Encoding.Hex
import Trustless.Proofs.Encoding.Base64
import Trustless.Proofs.Registry.Exchange
import Trustless.Proofs.Registry.Derivation
import Trustless.Proofs.Registry.Digest
import Trustless.Proofs.Registry.Wire
import Trustless.Proofs.Key
import Trustless.Proofs.Resolution.Chain
import Trustless.Proofs.Resolution.Proof
import Trustless.Proofs.Resolution.Header
import Trustless.Proofs.Attribution
import Trustless.Proofs.Portal.Fetch
import Trustless.Proofs.Portal.Download
import Trustless.Proofs.Portal.Read
import Trustless.Proofs.Resolution.Honest
import Trustless.Proofs.Resolution.Followed
import Trustless.Proofs.Resolution.Agreement
import Trustless.Proofs.Resolution.Owners
import Trustless.Proofs.Portal.Requests
import Trustless.Proofs.Portal.Lookup
import Trustless.Proofs.Portal.Quorum
import Trustless.Proofs.Portal.Update
import Trustless.Proofs.Portal.Post
import Trustless.Proofs.Portal.Walk
import Trustless.Proofs.Merkle.Root
import Trustless.Proofs.Merkle.TopDown
import Trustless.Proofs.Merkle.InPlace
import Trustless.Proofs.Merkle.ProofSize
import Trustless.Proofs.Guarded.Basic
import Trustless.Proofs.Guarded.Merkle
import Trustless.Proofs.Guarded.Download
import Trustless.Proofs.Merkle.Refusal
import Trustless.Proofs.Partition
import Trustless.Proofs.Merkle.Regroup
import Trustless.Proofs.Guarded.Link
import Trustless.Proofs.Link.Cover
import Trustless.Proofs.Encoding.Spelling
import Trustless.Proofs.Skyfile.Build
import Trustless.Proofs.Skyfile.Restore
import Trustless.Proofs.Skyfile.Path
import Trustless.Proofs.Merkle.Shortest
import Trustless.Proofs.Skyfile.Codec
