import ShaderBackend.Generator.Basic

/-!
The reply of a generator: the bytes `DKCG`, a status, five counts, then the code and the constants.
After a negative status nothing else is read.
-/

namespace ShaderBackend

namespace Reply

def headerLength : Nat := 28

/-- The bytes `DKCG`. -/
def magic : Bytes := [0x44, 0x4b, 0x43, 0x47]

def malformed (what : Text) : Failure :=
  .exchange ("malformed reply: " ++ what)

def decode (bytes : Bytes) : Except Failure Generated :=
  if bytes.length < headerLength then .error (malformed "truncated header")
  else if bytes.take 4 != magic then .error (malformed "bad magic")
  else
    let status := (bytes.word32At 4).toInt32
    if status < 0 then .error { status }
    else
      let codeLength := (bytes.word32At 20).toNat
      let constantsLength := (bytes.word32At 24).toNat
      let payload := bytes.drop headerLength
      if payload.length < codeLength + constantsLength then .error (malformed "truncated payload")
      else if codeLength % 8 != 0 then
        .error (malformed "code is not a whole number of instructions")
      else .ok {
        code := payload.take codeLength
        numGprs := bytes.word32At 8
        threadScratch := bytes.word32At 12
        numBarriers := bytes.word32At 16
        constants := (payload.drop codeLength).take constantsLength }

def encode (status : Int32) (g : Generated) : Bytes :=
  magic ++
    [status.toUInt32, g.numGprs, g.threadScratch, g.numBarriers, UInt32.ofNat g.code.length,
      UInt32.ofNat g.constants.length].flatMap Bytes.ofUInt32 ++
    g.code ++ g.constants

end Reply

end ShaderBackend
