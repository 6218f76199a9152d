import PathGuard.Access.Global
import PathGuard.Access.Path
import PathGuard.Diagnostic.Basic
import PathGuard.Diagnostic.Message
import PathGuard.Diagnostic.Report
import PathGuard.Grammar.Block
import PathGuard.Grammar.Class
import PathGuard.Grammar.Lookahead
import PathGuard.Grammar.Member
import PathGuard.Grammar.Module
import PathGuard.Grammar.Name
import PathGuard.Grammar.Operator
import PathGuard.Grammar.Pattern
import PathGuard.Grammar.Phrase
import PathGuard.Grammar.Primary
import PathGuard.Grammar.Problem
import PathGuard.Grammar.Program
import PathGuard.Grammar.State
import PathGuard.Grammar.Statement
import PathGuard.Json.Basic
import PathGuard.Json.Number
import PathGuard.Json.Quoted
import PathGuard.Json.Skip
import PathGuard.Log.Format
import PathGuard.Proofs.Access.Optional
import PathGuard.Proofs.Access.Path
import PathGuard.Proofs.Access.Route
import PathGuard.Proofs.Ban.Bare
import PathGuard.Proofs.Ban.Blind
import PathGuard.Proofs.Ban.Class
import PathGuard.Proofs.Ban.Operator
import PathGuard.Proofs.Ban.Pattern
import PathGuard.Proofs.Ban.Primary
import PathGuard.Proofs.Ban.Program
import PathGuard.Proofs.Ban.Rules
import PathGuard.Proofs.Ban.Statement
import PathGuard.Proofs.Diagnostic.Message
import PathGuard.Proofs.Diagnostic.Place
import PathGuard.Proofs.Diagnostic.Snippet
import PathGuard.Proofs.Grammar.Adding
import PathGuard.Proofs.Grammar.Block
import PathGuard.Proofs.Grammar.Chain
import PathGuard.Proofs.Grammar.Class
import PathGuard.Proofs.Grammar.Climbing
import PathGuard.Proofs.Grammar.Destructuring
import PathGuard.Proofs.Grammar.Judgement
import PathGuard.Proofs.Grammar.Making
import PathGuard.Proofs.Grammar.Member
import PathGuard.Proofs.Grammar.Module
import PathGuard.Proofs.Grammar.Name
import PathGuard.Proofs.Grammar.Operand
import PathGuard.Proofs.Grammar.Operation
import PathGuard.Proofs.Grammar.Operator
import PathGuard.Proofs.Grammar.Parsed
import PathGuard.Proofs.Grammar.Pattern
import PathGuard.Proofs.Grammar.Primary
import PathGuard.Proofs.Grammar.Program
import PathGuard.Proofs.Grammar.Reading
import PathGuard.Proofs.Grammar.Route
import PathGuard.Proofs.Grammar.Rules
import PathGuard.Proofs.Grammar.Single
import PathGuard.Proofs.Grammar.Statement
import PathGuard.Proofs.Grammar.Template
import PathGuard.Proofs.Guard.Class
import PathGuard.Proofs.Guard.Method
import PathGuard.Proofs.Guard.Pattern
import PathGuard.Proofs.Guard.Primary
import PathGuard.Proofs.Guard.Program
import PathGuard.Proofs.Guard.Rules
import PathGuard.Proofs.Guard.Statement
import PathGuard.Proofs.Rule.Access
import PathGuard.Proofs.Rule.Ancestor
import PathGuard.Proofs.Rule.Boundary
import PathGuard.Proofs.Rule.Chain
import PathGuard.Proofs.Rule.Configured
import PathGuard.Proofs.Rule.Destructured
import PathGuard.Proofs.Rule.Destructuring
import PathGuard.Proofs.Rule.Initializer
import PathGuard.Proofs.Rule.Protected
import PathGuard.Proofs.Rule.Reported
import PathGuard.Proofs.Rule.Single
import PathGuard.Proofs.Rule.Walk
import PathGuard.Proofs.Run.Block
import PathGuard.Proofs.Run.Class
import PathGuard.Proofs.Run.Loop
import PathGuard.Proofs.Run.Member
import PathGuard.Proofs.Run.Module
import PathGuard.Proofs.Run.Move
import PathGuard.Proofs.Run.Name
import PathGuard.Proofs.Run.Noted
import PathGuard.Proofs.Run.Operator
import PathGuard.Proofs.Run.Parsed
import PathGuard.Proofs.Run.Pattern
import PathGuard.Proofs.Run.Primary
import PathGuard.Proofs.Run.Program
import PathGuard.Proofs.Run.Rules
import PathGuard.Proofs.Run.Running
import PathGuard.Proofs.Run.Statement
import PathGuard.Proofs.Scope.Contents
import PathGuard.Proofs.Scope.Declared
import PathGuard.Proofs.Scope.Forest
import PathGuard.Proofs.Scope.Growth
import PathGuard.Proofs.Scope.Linked
import PathGuard.Proofs.Scope.Lookup
import PathGuard.Proofs.Scope.Open
import PathGuard.Proofs.Scope.Owner
import PathGuard.Proofs.Scope.Plan
import PathGuard.Proofs.Scope.Recursive
import PathGuard.Proofs.Scope.Run
import PathGuard.Proofs.Scope.Silent
import PathGuard.Proofs.Skip.Ahead
import PathGuard.Proofs.Skip.Arrow
import PathGuard.Proofs.Skip.Block
import PathGuard.Proofs.Skip.Class
import PathGuard.Proofs.Skip.Member
import PathGuard.Proofs.Skip.Module
import PathGuard.Proofs.Skip.Name
import PathGuard.Proofs.Skip.Operator
import PathGuard.Proofs.Skip.Pattern
import PathGuard.Proofs.Skip.Primary
import PathGuard.Proofs.Skip.Quiet
import PathGuard.Proofs.Skip.Route
import PathGuard.Proofs.Skip.Rules
import PathGuard.Proofs.Skip.Statement
import PathGuard.Proofs.Skip.Walk
import PathGuard.Proofs.Span.Adding
import PathGuard.Proofs.Span.Block
import PathGuard.Proofs.Span.Class
import PathGuard.Proofs.Span.Laying
import PathGuard.Proofs.Span.Member
import PathGuard.Proofs.Span.Module
import PathGuard.Proofs.Span.Name
import PathGuard.Proofs.Span.Operator
import PathGuard.Proofs.Span.Parsed
import PathGuard.Proofs.Span.Pattern
import PathGuard.Proofs.Span.Primary
import PathGuard.Proofs.Span.Program
import PathGuard.Proofs.Span.Rules
import PathGuard.Proofs.Span.Statement
import PathGuard.Proofs.Text.Blank
import PathGuard.Proofs.Text.Dotted
import PathGuard.Proofs.Text.Lines
import PathGuard.Proofs.Text.Numeral
import PathGuard.Proofs.Text.Partition
import PathGuard.Proofs.Text.Position
import PathGuard.Proofs.Token.Chain
import PathGuard.Proofs.Token.Destructuring
import PathGuard.Proofs.Token.Escape
import PathGuard.Proofs.Token.Forward
import PathGuard.Proofs.Token.Identifier
import PathGuard.Proofs.Token.LineBreak
import PathGuard.Proofs.Token.NamePart
import PathGuard.Proofs.Token.RegularExpression
import PathGuard.Proofs.Token.Route
import PathGuard.Proofs.Token.Session
import PathGuard.Proofs.Token.Slices
import PathGuard.Proofs.Token.Spelling
import PathGuard.Proofs.Token.StringLiteral
import PathGuard.Proofs.Token.Template
import PathGuard.Proofs.Token.Tiling
import PathGuard.Proofs.Token.Trivia
import PathGuard.Proofs.Token.Unclosed
import PathGuard.Proofs.Token.Word
import PathGuard.Proofs.Tree.Building
import PathGuard.Proofs.Tree.Family
import PathGuard.Proofs.Tree.Growth
import PathGuard.Proofs.Tree.Layout
import PathGuard.Proofs.Tree.Nesting
import PathGuard.Proofs.Tree.Preorder
import PathGuard.Proofs.Tree.Sound
import PathGuard.Proofs.Tree.Span
import PathGuard.Rule.Check
import PathGuard.Rule.Options
import PathGuard.Rule.OptionsReader
import PathGuard.Rule.Protected
import PathGuard.Rule.Source
import PathGuard.Rule.Violation
import PathGuard.Scope.Basic
import PathGuard.Scope.Build
import PathGuard.Scope.Declaration
import PathGuard.Scope.Symbol
import PathGuard.Text.Blank
import PathGuard.Text.Character
import PathGuard.Text.Cursor
import PathGuard.Text.Dotted
import PathGuard.Text.Letter
import PathGuard.Text.Lines
import PathGuard.Text.Quoted
import PathGuard.Token.Character
import PathGuard.Token.Escape
import PathGuard.Token.Flags
import PathGuard.Token.Keyword
import PathGuard.Token.Kind
import PathGuard.Token.Lexer
import PathGuard.Token.Piece
import PathGuard.Token.Punctuator
import PathGuard.Tree.Basic
import PathGuard.Tree.Kind
import PathGuard.Tree.Record
