import WorkItemQuery.Grammar.Checked
import WorkItemQuery.Main
import WorkItemQuery.Proofs.CommandLine.Verdict
import WorkItemQuery.Proofs.Field.Catalog
import WorkItemQuery.Proofs.Field.RoundTrip
import WorkItemQuery.Proofs.Grammar.Checked
import WorkItemQuery.Proofs.Grammar.Depth
import WorkItemQuery.Proofs.Grammar.EndMark
import WorkItemQuery.Proofs.Grammar.Layout
import WorkItemQuery.Proofs.Grammar.Links
import WorkItemQuery.Proofs.Grammar.Lossless
import WorkItemQuery.Proofs.Grammar.Safety
import WorkItemQuery.Proofs.Grammar.Written
import WorkItemQuery.Proofs.Query.Case
import WorkItemQuery.Proofs.Query.Numbers
import WorkItemQuery.Proofs.Query.RoundTrip
import WorkItemQuery.Proofs.Query.Sides
import WorkItemQuery.Proofs.Select.Built
import WorkItemQuery.Proofs.Select.Reading
import WorkItemQuery.Proofs.Token.Lexing
import WorkItemQuery.Proofs.Token.Loop
import WorkItemQuery.Proofs.Token.Positions
import WorkItemQuery.Proofs.Token.Tiling
import WorkItemQuery.Proofs.Tree.Dump
import WorkItemQuery.Proofs.Tree.Traversal
