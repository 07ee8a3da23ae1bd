import TypedConfig.Decoding

/-!
# Sample records

The types as which the sections of the sample schemas are read.
-/
namespace TypedConfig.Sample
open Decoding (Field Record)

structure Parma where
  culex : Int64

def Parma.record : Record := ⟨"Parma", [.of "culex" .int64], false⟩

def Parma.decoder : Decoder Parma := fun t => do
  let ms ← record.members t
  return { culex := ← Record.required ms "culex" .int64 }

structure Server where
  host : String
  port : Int

/-- An object has no members but the fields. -/
def Server.record : Record := ⟨"Server", [.of "host" .string, .of "port" (.unsigned 16)], true⟩

def Server.decoder : Decoder Server := fun t => do
  let ms ← record.members t
  return {
    host := ← Record.required ms "host" .string
    port := ← Record.required ms "port" (.unsigned 16) }

structure Database where
  url : String
  poolSize : Option Int
  replicas : List String

def Database.record : Record :=
  ⟨"Database", [.of "url" .string, .of "pool_size" (.optional (.unsigned 32)),
    .of "replicas" (.list .string)], false⟩

def Database.decoder : Decoder Database := fun t => do
  let ms ← record.members t
  return {
    url := ← Record.required ms "url" .string
    poolSize := ← Record.absentable ms "pool_size" (.optional (.unsigned 32))
    replicas := ← Record.required ms "replicas" (.list .string) }

/-- How much is logged. -/
inductive Level where
  | low
  | mid
  | high
deriving DecidableEq, Repr

def Level.name : Level → String
  | .low => "low"
  | .mid => "mid"
  | .high => "high"

def Level.decoder : Decoder Level := .variant ([.low, .mid, .high].map fun (l : Level) => (l.name, l))

end TypedConfig.Sample
