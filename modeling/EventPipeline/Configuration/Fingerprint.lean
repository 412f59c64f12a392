import EventPipeline.Configuration.Digest
import EventPipeline.Files.Tree
import EventPipeline.Json.Canonical

/-!
# Fingerprints

The fingerprint of a configuration is the digest of its canonical text, so it does not depend on
the order of keys.
-/

namespace EventPipeline

namespace Configuration

/-- A byte in two hexadecimal digits. -/
def hexByte (b : UInt8) : Text := Text.hex 2 b.toNat

/-- The digest of a value's canonical text in hexadecimal. -/
def digestOf (v : Value) : Except Failure Text :=
  match Text.encode (Json.canonical v) with
  | .error run => .error run.toFailure
  | .ok bytes => .ok ((Digest.sha256 bytes).flatMap hexByte)

/-- The fingerprint of a configuration, which has to be an object. -/
def fingerprint (config : Value) : Except Failure Text :=
  match config with
  | .object _ => digestOf config
  | v => .error (.plain .type ("config hash expects a mapping, got " ++ v.tag))

end Configuration

end EventPipeline
