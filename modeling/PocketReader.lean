import PocketReader.Reader.Loop
import PocketReader.Storage.Directory
import PocketReader.Storage.Memory
import PocketReader.Display.Panel
import PocketReader.Proofs.Page.Slots
import PocketReader.Proofs.Page.Trees
import PocketReader.Proofs.Page.Graft
import PocketReader.Proofs.Page.Loops
import PocketReader.Proofs.Page.Reachable
import PocketReader.Proofs.Page.Arena
import PocketReader.Proofs.Page.Refinement
import PocketReader.Proofs.Focus
import PocketReader.Proofs.Layout.Marks
import PocketReader.Proofs.Script.Effects
import PocketReader.Proofs.Script.Scripted
import PocketReader.Proofs.Script.Confined
import PocketReader.Proofs.Script.Oblivious
import PocketReader.Proofs.Navigation
import PocketReader.Proofs.Navigation.Requests
import PocketReader.Proofs.Reader.Run
import PocketReader.Proofs.Reader.Stages
import PocketReader.Proofs.Script.Record
import PocketReader.Proofs.Session
import PocketReader.Proofs.Session.Unseen
import PocketReader.Proofs.Reader.Index
import PocketReader.Proofs.Layout.Cutoff
import PocketReader.Proofs.Layout.Rows
import PocketReader.Proofs.Layout.Extents
import PocketReader.Proofs.Session.Survey
import PocketReader.Proofs.Session.Settling
import PocketReader.Proofs.Reader.History
import PocketReader.Proofs.Reader.Unseen
import PocketReader.Proofs.Reader.Callbacks
import PocketReader.Proofs.Reader.Isolation
import PocketReader.Proofs.Layout.Likeness
import PocketReader.Proofs.Reader.Rest
import PocketReader.Proofs.Page.Head
import PocketReader.Proofs.Reader.Lifecycle
import PocketReader.Proofs.Page.Generations
import PocketReader.Proofs.Script.Assignments
import PocketReader.Proofs.Scroll.Words
import PocketReader.Proofs.Scroll.Bounds
import PocketReader.Proofs.Scroll.Smoothing
import PocketReader.Proofs.Markup.Token
import PocketReader.Proofs.Page.Issued
import PocketReader.Proofs.Markup.Tag
import PocketReader.Proofs.Markup.Nesting
import PocketReader.Proofs.Markup.Written
import PocketReader.Proofs.Button.Traffic
import PocketReader.Proofs.Button.Strokes
import PocketReader.Proofs.Session.Survival
import PocketReader.Proofs.Session.Refusal
import PocketReader.Proofs.Layout.Coloring
import PocketReader.Proofs.Layout.Order
import PocketReader.Proofs.Layout.Pass
import PocketReader.Proofs.Text.Wrap
import PocketReader.Proofs.Markup.Clean
import PocketReader.Proofs.Markup.Shown
import PocketReader.Proofs.Page.Search
import PocketReader.Proofs.Script.Element
import PocketReader.Proofs.Page.ReadingOrder
import PocketReader.Proofs.Layout.Boxes
import PocketReader.Proofs.Storage.Path
import PocketReader.Proofs.Storage.Directory
