import Ensemble.Catalog
import Ensemble.Client.Basic
import Ensemble.Client.Config
import Ensemble.Client.Link
import Ensemble.Client.Retry
import Ensemble.Client.Script
import Ensemble.Client.Transaction
import Ensemble.Client.Tree
import Ensemble.Client.Watcher
import Ensemble.Envelope.Request
import Ensemble.Envelope.Response
import Ensemble.Error
import Ensemble.Event
import Ensemble.Exception
import Ensemble.Frame
import Ensemble.Node.Acl
import Ensemble.Node.CreateMode
import Ensemble.Node.Records
import Ensemble.Node.Stat
import Ensemble.OpCode
import Ensemble.Path
import Ensemble.Record.Basic
import Ensemble.Record.Codec
import Ensemble.Record.Schema
import Ensemble.Record.Value
import Ensemble.Session
import Ensemble.Text.Blank
import Ensemble.Text.Decimal
import Ensemble.Text.Escaped
import Ensemble.Text.Printable
import Ensemble.Text.Utf8
import Ensemble.Transaction.Basic
import Ensemble.Transaction.Codec
import Ensemble.Wire.BigEndian
import Ensemble.Wire.Reader
import Ensemble.Wire.Writer
import Ensemble.Proofs.Utf8
import Ensemble.Proofs.Wire
import Ensemble.Proofs.FieldCodec
import Ensemble.Proofs.FieldBounds
import Ensemble.Proofs.RecordCodec
import Ensemble.Proofs.NodeCodec
import Ensemble.Proofs.TransactionCodec
import Ensemble.Proofs.RequestCodec
import Ensemble.Proofs.ReplyCodec
import Ensemble.Proofs.FrameStream
import Ensemble.Proofs.ResponseCodec
import Ensemble.Proofs.DecoderBounds
import Ensemble.Proofs.Chroot
import Ensemble.Proofs.Watchers
import Ensemble.Proofs.WellFormed
import Ensemble.Proofs.Calls
import Ensemble.Proofs.Retries
import Ensemble.Proofs.Served
import Ensemble.Proofs.Ancestors
import Ensemble.Proofs.Subtree
import Ensemble.Proofs.WatchRegistration
import Ensemble.Proofs.Requests
import Ensemble.Proofs.Sessions
import Ensemble.Proofs.RetryLoop
import Ensemble.Proofs.Commit
import Ensemble.Proofs.Reencoding
import Ensemble.Proofs.ChrootArguments
import Ensemble.Proofs.PathGrammar
import Ensemble.Proofs.ServerDisplay
