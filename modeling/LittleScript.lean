import LittleScript.Main
import LittleScript.Proofs.Grammar.Joining
import LittleScript.Proofs.Layered.Refinement
import LittleScript.Proofs.Layout.Preservation
import LittleScript.Proofs.Layout.RoundTrip
import LittleScript.Proofs.Layout.Unambiguous
import LittleScript.Proofs.Rule.Braces.Nested
import LittleScript.Proofs.Rule.Keeping.Nested
import LittleScript.Proofs.Rule.Limits
import LittleScript.Proofs.Run.Attempt
import LittleScript.Proofs.Run.Characters
import LittleScript.Proofs.Run.Numbers
import LittleScript.Proofs.Run.Sharing
import LittleScript.Proofs.Run.Spelling
import LittleScript.Proofs.Run.Tallest
import LittleScript.Proofs.Run.Truncation
import LittleScript.Proofs.Run.Visits
import LittleScript.Proofs.Shell.Reading
import LittleScript.Proofs.Token.Calls
import LittleScript.Proofs.Token.Covering
import LittleScript.Proofs.Token.Merging
