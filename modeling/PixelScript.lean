import PixelScript.Main
import PixelScript.Proofs.Evaluation.CallDepth
import PixelScript.Proofs.Evaluation.Folds
import PixelScript.Proofs.Evaluation.Frames
import PixelScript.Proofs.Evaluation.Halting
import PixelScript.Proofs.Evaluation.Limits
import PixelScript.Proofs.Evaluation.Location
import PixelScript.Proofs.Evaluation.Ownership
import PixelScript.Proofs.Evaluation.Renaming
import PixelScript.Proofs.Evaluation.Sugar
import PixelScript.Proofs.Evaluation.Turns
import PixelScript.Proofs.Machine.Scopes
import PixelScript.Proofs.Session.Isolation
import PixelScript.Proofs.Source.Snippets
import PixelScript.Proofs.Syntax.Conditions
import PixelScript.Proofs.Syntax.FunctionHeads
import PixelScript.Proofs.Syntax.LineBreaks
import PixelScript.Proofs.Syntax.SpanTree
import PixelScript.Proofs.Token.Errors
import PixelScript.Proofs.Token.Literals
import PixelScript.Proofs.Value.Counting
import PixelScript.Syntax.Cursor
