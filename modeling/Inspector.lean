import Inspector.Folder
import Inspector.Main
import Inspector.Token.Stream
import Inspector.Proofs.Element.Complete
import Inspector.Proofs.Element.Union
import Inspector.Proofs.Layout.Modes
import Inspector.Proofs.Layout.Spelling
import Inspector.Proofs.Position.Flags
import Inspector.Proofs.Element.Tokens
import Inspector.Proofs.Token.Written
import Inspector.Proofs.ClassMap.Ordered
import Inspector.Proofs.Draft.Family
import Inspector.Proofs.Token.Stream
import Inspector.Proofs.Stroke.Family
import Inspector.Proofs.Appearance.Family
import Inspector.Proofs.Layout.Family
import Inspector.Proofs.Layout.Interleaving
import Inspector.Proofs.Position.Family
import Inspector.Proofs.Element.Interleaving
import Inspector.Proofs.Stroke.LastWrite
import Inspector.Proofs.Appearance.LastWrite
import Inspector.Proofs.Layout.LastWrite
import Inspector.Proofs.Position.LastWrite
import Inspector.Proofs.Element.LastWrite
import Inspector.Proofs.Fragment
import Inspector.Proofs.Element.Attribute
import Inspector.Proofs.Draft.Lines
import Inspector.Proofs.Element.Blocks
import Inspector.Proofs.Appearance.Lines
import Inspector.Proofs.Fill.Lines
import Inspector.Proofs.Stroke.Lines
import Inspector.Proofs.Layout.Lines
import Inspector.Proofs.Position.Lines
import Inspector.Proofs.Element.Lines
import Inspector.Proofs.ByName
import Inspector.Proofs.Group.Enclosed
import Inspector.Proofs.Text.Octets
import Inspector.Proofs.Sheet.Store
import Inspector.Proofs.Appearance.Keys
import Inspector.Proofs.Element.Keys
import Inspector.Proofs.Json.Event
import Inspector.Proofs.Sheet.Json
import Inspector.Proofs.Position.Rotation
import Inspector.Proofs.Fill.Bare
import Inspector.Proofs.Element.Numbers
import Inspector.Proofs.Layout.Alignment
import Inspector.Proofs.Stroke.Weights
import Inspector.Proofs.Appearance.Radii
import Inspector.Proofs.Layout.Paddings
import Inspector.Proofs.Layout.Wrap
import Inspector.Proofs.Element.Required
import Inspector.Proofs.Element.Opacity
import Inspector.Proofs.Position.Placement
import Inspector.Proofs.Element.Spelling
import Inspector.Proofs.Position.Angle
import Inspector.Proofs.Element.Extents
import Inspector.Proofs.Element.Overrides
import Inspector.Proofs.Element.Descent
import Inspector.Proofs.Element.Canonical
import Inspector.Proofs.Element.Reread
import Inspector.Proofs.Element.Units
import Inspector.Proofs.Offset.Value
