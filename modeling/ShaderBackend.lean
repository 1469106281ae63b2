import ShaderBackend.CommandLine.Run
import ShaderBackend.Files.Store
import ShaderBackend.Main
import ShaderBackend.Proofs.Compile.Artifact
import ShaderBackend.Proofs.Generator.Reply
import ShaderBackend.Proofs.Module.Canonical
import ShaderBackend.Proofs.Program.Numbering
import ShaderBackend.Proofs.Varying.Assignment
import ShaderBackend.Proofs.Generator.Request
import ShaderBackend.Proofs.Program.LineByLine
import ShaderBackend.Proofs.Varying.FixedLayout
import ShaderBackend.Proofs.Code.Schedule
import ShaderBackend.Proofs.Code.Filled
import ShaderBackend.Proofs.Varying.ColorRegisters
import ShaderBackend.Proofs.Varying.SlotFormula
import ShaderBackend.Proofs.Varying.History
import ShaderBackend.Proofs.Module.Acceptance
import ShaderBackend.Proofs.Module.CodeRegion
import ShaderBackend.Proofs.Varying.VertexInputs
import ShaderBackend.Proofs.Program.ReadBack
import ShaderBackend.Proofs.Program.RegisterGrammar
import ShaderBackend.Proofs.Text.Place
import ShaderBackend.Proofs.Program.Inside
import ShaderBackend.Proofs.Program.Spans
import ShaderBackend.Proofs.Program.HeaderSpan
import ShaderBackend.Proofs.Program.Accepted
import ShaderBackend.Proofs.Code.Registers
import ShaderBackend.Proofs.Module.StageWords
import ShaderBackend.Proofs.Target.Layout
import ShaderBackend.Proofs.Target.GeneratorLine
import ShaderBackend.Proofs.Text.Rejoined
import ShaderBackend.Proofs.Module.ShortForm
import ShaderBackend.Proofs.Files.Store
