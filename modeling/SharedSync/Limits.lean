/-!
# Limits — the sizes every party agrees on
-/

namespace SharedSync.Limits

/-- Bytes of shared state per object: two 32-bit words. -/
def stateBlockBytes : Nat := 8

/-- Bytes of one block of the handle cache. -/
def cacheBlockBytes : Nat := 65536

/-- Bytes of one cache record: a tag, padding, and an address. -/
def cacheRecordBytes : Nat := 16

/-- Records in one block of the handle cache. -/
def recordsPerBlock : Nat := cacheBlockBytes / cacheRecordBytes

/-- Blocks of the handle cache; handles beyond them are served uncached. -/
def cacheBlocks : Nat := 256

/-- The longest object name, in UTF-16 units. -/
def maxNameUnits : Nat := 32767

/-- Pages per chunk of a page directory. -/
def pageChunkLength : Nat := 1024

/-- Chunks of a page directory. -/
def pageChunks : Nat := 8192

/-- The least value of a frame's length field: version, kind and request number. -/
def frameMin : Nat := 12

/-- The greatest value of a frame's length field. -/
def frameMax : Nat := 1048576

/-- Bytes in front of a frame's payload, the length field included. -/
def frameHeaderBytes : Nat := 16

/-- The protocol version that every frame carries. -/
def protocolVersion : UInt16 := 1

/-- Bytes per page of the machine with the smallest pages. -/
def leastPage : Nat := 4096

/-- The number of the wait operation on several words. -/
def waitMultipleOperation : Int32 := 13

end SharedSync.Limits
