import ArityDispatch.Session.Command
import ArityDispatch.Value.Comparison
import ArityDispatch.Proofs.Calls.Rule
import ArityDispatch.Proofs.Calls.Reader
import ArityDispatch.Proofs.Calls.Paths
import ArityDispatch.Proofs.Values.Collections
import ArityDispatch.Proofs.Values.Stock
import ArityDispatch.Proofs.Values.Literals
import ArityDispatch.Proofs.Values.Matching
import ArityDispatch.Proofs.Values.Equality
import ArityDispatch.Proofs.Values.Hashing
import ArityDispatch.Proofs.Values.Occurrences
import ArityDispatch.Proofs.Values.Twins
import ArityDispatch.Proofs.Calls.Parameters
import ArityDispatch.Proofs.Calls.Served
import ArityDispatch.Proofs.Calls.Counterparts
import ArityDispatch.Proofs.Slots.WrittenOnce
import ArityDispatch.Proofs.Errors.ReadBack
import ArityDispatch.Proofs.Tables
import ArityDispatch.Proofs.Vars.PlainMap
import ArityDispatch.Proofs.Vars.Refinement
import ArityDispatch.Proofs.Release.Calls
import ArityDispatch.Proofs.Release.Commands
import ArityDispatch.Proofs.Release.Contexts
import ArityDispatch.Proofs.Slots.Sessions
import ArityDispatch.Proofs.Calls.Lookups
import ArityDispatch.Proofs.Values.InsertionOrder
import ArityDispatch.Proofs.Calls.VarSources
import ArityDispatch.Proofs.Values.Contents
import ArityDispatch.Proofs.Calls.EqualCallees
import ArityDispatch.Proofs.Frame.Sessions
import ArityDispatch.Proofs.Frame.Calls
import ArityDispatch.Proofs.Frame.Boundary
import ArityDispatch.Proofs.Settings.Levels
import ArityDispatch.Proofs.Settings.Loading
import ArityDispatch.Proofs.Printing.Unambiguous
