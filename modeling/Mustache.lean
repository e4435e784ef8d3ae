import Mustache.Main
import Mustache.Text.Quoted
import Mustache.Value.Debug
import Mustache.Value.Equality
import Mustache.Proofs.Accessor.Agreement
import Mustache.Proofs.Accessor.Calls
import Mustache.Proofs.Accessor.Write
import Mustache.Proofs.Buffer.Places
import Mustache.Proofs.Buffer.Table
import Mustache.Proofs.Draft.Boundaries
import Mustache.Proofs.Draft.Dotted
import Mustache.Proofs.Draft.Equivalence
import Mustache.Proofs.Draft.Escaping
import Mustache.Proofs.Draft.Guards
import Mustache.Proofs.Draft.Indentation
import Mustache.Proofs.Draft.Lines
import Mustache.Proofs.Draft.Seam
import Mustache.Proofs.Draft.Sections
import Mustache.Proofs.Draft.Standalone
import Mustache.Proofs.Draft.Termination
import Mustache.Proofs.Engine
import Mustache.Proofs.Engine.Merging
import Mustache.Proofs.Reader.Installing
import Mustache.Proofs.Reader.Lines
import Mustache.Proofs.Reader.Marks
import Mustache.Proofs.Reader.Nesting
import Mustache.Proofs.Reader.Segments
import Mustache.Proofs.Reader.Standalone
import Mustache.Proofs.Reader.Triple
import Mustache.Proofs.Registry.Collision
import Mustache.Proofs.Registry.Names
import Mustache.Proofs.Registry.Order
import Mustache.Proofs.Render.Scope
import Mustache.Proofs.Render.Single
import Mustache.Proofs.Render.Stack
import Mustache.Proofs.Value.RoundTrip
import Mustache.Proofs.Verdict
