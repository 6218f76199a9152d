import PathGuard.Token.Kind
/-!
# Kinds of nodes

A node either stands for a single token and has that token's kind, or for a construct. Every kind
has a number; a number without a kind of its own still numbers a kind that no construct has.
-/

namespace PathGuard

inductive NodeKind where
  | token (kind : TokenKind)
  | computedPropertyName | objectBindingPattern | arrayBindingPattern | bindingElement
  | parameter | arrayLiteral | objectLiteral | propertyAccess | elementAccess | callExpression
  | newExpression | taggedTemplate | parenthesized | functionExpression | arrowFunction
  | prefixUnary | postfixUnary | binaryExpression | conditionalExpression | templateExpression
  | templateSpan | spreadElement | classExpression | omittedExpression | metaProperty
  | awaitExpression | yieldExpression | propertyAssignment | shorthandProperty | spreadAssignment
  | methodDeclaration | getAccessor | setAccessor | constructorDeclaration | propertyDeclaration
  | staticBlock | block | emptyStatement | variableStatement | expressionStatement | ifStatement
  | doStatement | whileStatement | forStatement | forInStatement | forOfStatement
  | continueStatement | breakStatement | returnStatement | switchStatement | labeledStatement
  | throwStatement | tryStatement | debuggerStatement | variableDeclaration
  | variableDeclarationList | functionDeclaration | classDeclaration | caseBlock | caseClause
  | defaultClause | catchClause | importDeclaration | importClause | namespaceImport
  | namedImports | importSpecifier | exportAssignment | exportDeclaration | namedExports
  | namespaceExport | exportSpecifier | sourceFile
  | unassigned (code : Nat)
  deriving DecidableEq, Repr

namespace NodeKind

instance : Inhabited NodeKind := ⟨.token .unknown⟩

def code : NodeKind → Nat
  | .token k => k.code
  | .computedPropertyName => 200
  | .objectBindingPattern => 201
  | .arrayBindingPattern => 202
  | .bindingElement => 203
  | .parameter => 204
  | .arrayLiteral => 210
  | .objectLiteral => 211
  | .propertyAccess => 212
  | .elementAccess => 213
  | .callExpression => 214
  | .newExpression => 215
  | .taggedTemplate => 216
  | .parenthesized => 217
  | .functionExpression => 218
  | .arrowFunction => 219
  | .prefixUnary => 220
  | .postfixUnary => 221
  | .binaryExpression => 222
  | .conditionalExpression => 223
  | .templateExpression => 224
  | .templateSpan => 225
  | .spreadElement => 226
  | .classExpression => 227
  | .omittedExpression => 228
  | .metaProperty => 229
  | .awaitExpression => 230
  | .yieldExpression => 231
  | .propertyAssignment => 240
  | .shorthandProperty => 241
  | .spreadAssignment => 242
  | .methodDeclaration => 245
  | .getAccessor => 246
  | .setAccessor => 247
  | .constructorDeclaration => 248
  | .propertyDeclaration => 249
  | .staticBlock => 250
  | .block => 260
  | .emptyStatement => 261
  | .variableStatement => 262
  | .expressionStatement => 263
  | .ifStatement => 264
  | .doStatement => 265
  | .whileStatement => 266
  | .forStatement => 267
  | .forInStatement => 268
  | .forOfStatement => 269
  | .continueStatement => 270
  | .breakStatement => 271
  | .returnStatement => 272
  | .switchStatement => 273
  | .labeledStatement => 274
  | .throwStatement => 275
  | .tryStatement => 276
  | .debuggerStatement => 277
  | .variableDeclaration => 280
  | .variableDeclarationList => 281
  | .functionDeclaration => 282
  | .classDeclaration => 283
  | .caseBlock => 284
  | .caseClause => 285
  | .defaultClause => 286
  | .catchClause => 287
  | .importDeclaration => 290
  | .importClause => 291
  | .namespaceImport => 292
  | .namedImports => 293
  | .importSpecifier => 294
  | .exportAssignment => 295
  | .exportDeclaration => 296
  | .namedExports => 297
  | .namespaceExport => 298
  | .exportSpecifier => 299
  | .sourceFile => 310
  | .unassigned n => n

def ofConstructCode? : Nat → Option NodeKind
  | 200 => some .computedPropertyName
  | 201 => some .objectBindingPattern
  | 202 => some .arrayBindingPattern
  | 203 => some .bindingElement
  | 204 => some .parameter
  | 210 => some .arrayLiteral
  | 211 => some .objectLiteral
  | 212 => some .propertyAccess
  | 213 => some .elementAccess
  | 214 => some .callExpression
  | 215 => some .newExpression
  | 216 => some .taggedTemplate
  | 217 => some .parenthesized
  | 218 => some .functionExpression
  | 219 => some .arrowFunction
  | 220 => some .prefixUnary
  | 221 => some .postfixUnary
  | 222 => some .binaryExpression
  | 223 => some .conditionalExpression
  | 224 => some .templateExpression
  | 225 => some .templateSpan
  | 226 => some .spreadElement
  | 227 => some .classExpression
  | 228 => some .omittedExpression
  | 229 => some .metaProperty
  | 230 => some .awaitExpression
  | 231 => some .yieldExpression
  | 240 => some .propertyAssignment
  | 241 => some .shorthandProperty
  | 242 => some .spreadAssignment
  | 245 => some .methodDeclaration
  | 246 => some .getAccessor
  | 247 => some .setAccessor
  | 248 => some .constructorDeclaration
  | 249 => some .propertyDeclaration
  | 250 => some .staticBlock
  | 260 => some .block
  | 261 => some .emptyStatement
  | 262 => some .variableStatement
  | 263 => some .expressionStatement
  | 264 => some .ifStatement
  | 265 => some .doStatement
  | 266 => some .whileStatement
  | 267 => some .forStatement
  | 268 => some .forInStatement
  | 269 => some .forOfStatement
  | 270 => some .continueStatement
  | 271 => some .breakStatement
  | 272 => some .returnStatement
  | 273 => some .switchStatement
  | 274 => some .labeledStatement
  | 275 => some .throwStatement
  | 276 => some .tryStatement
  | 277 => some .debuggerStatement
  | 280 => some .variableDeclaration
  | 281 => some .variableDeclarationList
  | 282 => some .functionDeclaration
  | 283 => some .classDeclaration
  | 284 => some .caseBlock
  | 285 => some .caseClause
  | 286 => some .defaultClause
  | 287 => some .catchClause
  | 290 => some .importDeclaration
  | 291 => some .importClause
  | 292 => some .namespaceImport
  | 293 => some .namedImports
  | 294 => some .importSpecifier
  | 295 => some .exportAssignment
  | 296 => some .exportDeclaration
  | 297 => some .namedExports
  | 298 => some .namespaceExport
  | 299 => some .exportSpecifier
  | 310 => some .sourceFile
  | _ => none

def ofCode (n : Nat) : NodeKind :=
  match TokenKind.ofCode? n with
  | some k => .token k
  | none => (ofConstructCode? n).getD (.unassigned n)

end NodeKind

end PathGuard
