import V2G.Build.Session
import V2G.Build.Single
import V2G.Codec.Basic
import V2G.Proofs.Build.Cardinality
import V2G.Proofs.Build.Forms
import V2G.Proofs.Build.Identifier
import V2G.Proofs.Build.Sets
import V2G.Proofs.Exchange.Binding
import V2G.Proofs.Station
import V2G.Proofs.Value.Crossing
import V2G.Proofs.Wire.Canonical
import V2G.Proofs.Wire.Carrier
import V2G.Proofs.Wire.Construction
import V2G.Proofs.Wire.Diagnosis
import V2G.Proofs.Wire.Lenient
import V2G.Proofs.Wire.Missing
import V2G.Proofs.Wire.Precedence
import V2G.Proofs.Wire.Repetition
import V2G.Proofs.Wire.Spoiled
import V2G.Proofs.Wire.Text
import V2G.Settings.Station
import V2G.Value.Decimal
import V2G.Value.OfJson
