import SpanChain.Session.Lists
import SpanChain.Session.Buffers
import SpanChain.Derive.Expansion
import SpanChain.Proofs.Bytes.Buffered
import SpanChain.Proofs.Bytes.Conserve
import SpanChain.Proofs.Bytes.Copied
import SpanChain.Proofs.Bytes.Described
import SpanChain.Proofs.Bytes.Flattened
import SpanChain.Proofs.Bytes.Forward
import SpanChain.Proofs.Bytes.Join
import SpanChain.Proofs.Bytes.Motion
import SpanChain.Proofs.Bytes.Pieces
import SpanChain.Proofs.Bytes.Place
import SpanChain.Proofs.Bytes.Position
import SpanChain.Proofs.Bytes.Remaining
import SpanChain.Proofs.Bytes.Reshaping
import SpanChain.Proofs.Bytes.RoundTrip
import SpanChain.Proofs.Bytes.Run
import SpanChain.Proofs.Bytes.Seam
import SpanChain.Proofs.Bytes.Split
import SpanChain.Proofs.Bytes.Stored
import SpanChain.Proofs.Bytes.Written
import SpanChain.Proofs.Cursors.Live
import SpanChain.Proofs.Cursors.Loops
import SpanChain.Proofs.Cursors.Mirror
import SpanChain.Proofs.Cursors.Stale
import SpanChain.Proofs.Cursors.Zipper
import SpanChain.Proofs.Derive.Code
import SpanChain.Proofs.Derive.Payload
import SpanChain.Proofs.Rows.Basic
import SpanChain.Proofs.Rows.Dealt
import SpanChain.Proofs.Rows.Edit
import SpanChain.Proofs.Rows.Frame
import SpanChain.Proofs.Rows.Guard
import SpanChain.Proofs.Rows.Linked
import SpanChain.Proofs.Rows.Member
import SpanChain.Proofs.Rows.Open
import SpanChain.Proofs.Rows.Represents
import SpanChain.Proofs.Rows.Run
import SpanChain.Proofs.Rows.Turnover
import SpanChain.Proofs.Rows.Undo
import SpanChain.Proofs.Rows.Way
import SpanChain.Proofs.Rules
